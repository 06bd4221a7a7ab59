import Mathlib.Logic.Basic

/-!
# Scripts on a connection that opens transactions by itself

A connection holds the committed database and the database its own statements see.  A definition
(`CREATE`, `ALTER`, `DROP`) outside a transaction commits by itself; a modification (`INSERT`,
`UPDATE`) opens a transaction when none is open, and what follows is committed only by `COMMIT`.

A script runs statements and reads what its connection sees in between.  Stopping it after some of
its statements leaves the committed database, and the question is whether a later run of the same
script still gets where an undisturbed run gets: `Restartable` says so of a script, and the rules
below build it up statement by statement.
-/

namespace ImplicitTransaction

variable {D α β γ : Type}

structure Connection (D : Type) where
  committed : D
  visible : D
  inTransaction : Bool

/-- A connection that has just been opened on a database. -/
def Connection.idle (d : D) : Connection D := ⟨d, d, false⟩

inductive Statement (D : Type) where
  | begin
  | commit
  | definition (f : D → D)
  | modification (f : D → D)

/-- What a statement does to the database its connection sees. -/
def Statement.effect : Statement D → D → D
  | .begin, d => d
  | .commit, d => d
  | .definition f, d => f d
  | .modification f, d => f d

namespace Connection

def execute (c : Connection D) : Statement D → Connection D
  | .begin => { c with inTransaction := true }
  | .commit => idle c.visible
  | .definition f =>
    if c.inTransaction then { c with visible := f c.visible } else idle (f c.visible)
  | .modification f => ⟨c.committed, f c.visible, true⟩

@[simp] theorem execute_commit (c : Connection D) : c.execute .commit = idle c.visible := rfl

@[simp] theorem execute_definition_idle (d : D) (f : D → D) :
    (idle d).execute (.definition f) = idle (f d) := rfl

theorem visible_execute (c : Connection D) (s : Statement D) :
    (c.execute s).visible = s.effect c.visible := by
  cases s with
  | begin => rfl
  | commit => rfl
  | definition f =>
    rw [execute]
    split <;> rfl
  | modification f => rfl

@[simp] theorem visible_idle (d : D) : (idle d).visible = d := rfl

@[simp] theorem committed_idle (d : D) : (idle d).committed = d := rfl

/-- Inside a transaction nothing but `COMMIT` reaches the committed database. -/
theorem committed_execute {c : Connection D} (hopen : c.inTransaction = true) {s : Statement D}
    (hs : s ≠ .commit) :
    (c.execute s).committed = c.committed ∧ (c.execute s).inTransaction = true := by
  cases s with
  | begin => exact ⟨rfl, rfl⟩
  | commit => exact absurd rfl hs
  | definition f =>
    rw [execute, if_pos hopen]
    exact ⟨rfl, hopen⟩
  | modification f => exact ⟨rfl, rfl⟩

end Connection

/-- A program that executes statements and reads the database its connection sees. -/
inductive Script (D α : Type) where
  | done (a : α)
  | execute (s : Statement D) (rest : Script D α)
  | read (rest : D → Script D α)

namespace Script

def bind : Script D α → (α → Script D β) → Script D β
  | .done a, f => f a
  | .execute s rest, f => .execute s (rest.bind f)
  | .read rest, f => .read fun d => (rest d).bind f

instance : Monad (Script D) where
  pure := .done
  bind := bind

theorem bind_done (p : Script D α) : p.bind .done = p := by
  induction p with
  | done a => rfl
  | execute s rest ih => exact congrArg (Script.execute s) ih
  | read rest ih => exact congrArg Script.read (funext ih)

theorem bind_bind (p : Script D α) (f : α → Script D β) (g : β → Script D γ) :
    (p.bind f).bind g = p.bind fun a => (f a).bind g := by
  induction p with
  | done a => rfl
  | execute s rest ih => exact congrArg (Script.execute s) ih
  | read rest ih => exact congrArg Script.read (funext ih)

instance : LawfulMonad (Script D) := LawfulMonad.mk' (Script D) bind_done (fun _ _ => rfl) bind_bind

/-- One statement. -/
def statement (s : Statement D) : Script D Unit := .execute s (.done ())

/-- `SELECT` -/
def query (f : D → α) : Script D α := .read fun d => .done (f d)

/-- A definition that is executed only where the database does not have it yet. -/
def defineUnless (has : D → Bool) (f : D → D) : Script D Unit :=
  .read fun d => if has d then .done () else statement (.definition f)

/-- The value of a run to the end and the connection it leaves. -/
def run : Script D α → Connection D → α × Connection D
  | .done a, c => (a, c)
  | .execute s rest, c => rest.run (c.execute s)
  | .read rest, c => (rest c.visible).run c

/-- The value of a run to the end and the database it leaves in sight, by that database alone. -/
def result : Script D α → D → α × D
  | .done a, d => (a, d)
  | .execute s rest, d => rest.result (s.effect d)
  | .read rest, d => (rest d).result d

/-- The number of statements a run to the end executes. -/
def statements : Script D α → Connection D → Nat
  | .done _, _ => 0
  | .execute s rest, c => rest.statements (c.execute s) + 1
  | .read rest, c => (rest c.visible).statements c

/-- The connection after at most `n` statements. -/
def stopAfter : Nat → Script D α → Connection D → Connection D
  | _, .done _, c => c
  | 0, .execute _ _, c => c
  | n + 1, .execute s rest, c => stopAfter n rest (c.execute s)
  | n, .read rest, c => stopAfter n (rest c.visible) c

/-- The database a crash after `n` statements leaves. -/
def crash (n : Nat) (p : Script D α) (d : D) : D := (p.stopAfter n (.idle d)).committed

theorem run_eq_result (p : Script D α) (c : Connection D) :
    (p.run c).1 = (p.result c.visible).1 ∧ (p.run c).2.visible = (p.result c.visible).2 := by
  induction p generalizing c with
  | done a => exact ⟨rfl, rfl⟩
  | execute s rest ih =>
    rw [run, result, ← Connection.visible_execute]
    exact ih _
  | read rest ih => exact ih _ c

@[simp] theorem result_bind (p : Script D α) (f : α → Script D β) (d : D) :
    (p >>= f).result d = (f (p.result d).1).result (p.result d).2 := by
  change (p.bind f).result d = _
  induction p generalizing d with
  | done a => rfl
  | execute s rest ih => exact ih _
  | read rest ih => exact ih _ _

@[simp] theorem result_pure (a : α) (d : D) : (pure a : Script D α).result d = (a, d) := rfl

@[simp] theorem result_query (f : D → α) (d : D) : (query f).result d = (f d, d) := rfl

@[simp] theorem result_statement (s : Statement D) (d : D) :
    (statement s).result d = ((), s.effect d) := rfl

@[simp] theorem result_defineUnless (has : D → Bool) (f : D → D) (d : D) :
    (defineUnless has f).result d = ((), if has d then d else f d) := by
  change (if has d then .done () else statement (.definition f) : Script D Unit).result d = _
  split <;> rfl

@[simp] theorem run_bind (p : Script D α) (f : α → Script D β) (c : Connection D) :
    (p >>= f).run c = (f (p.run c).1).run (p.run c).2 := by
  change (p.bind f).run c = _
  induction p generalizing c with
  | done a => rfl
  | execute s rest ih => exact ih _
  | read rest ih => exact ih _ _

@[simp] theorem statements_bind (p : Script D α) (f : α → Script D β) (c : Connection D) :
    (p >>= f).statements c = p.statements c + (f (p.run c).1).statements (p.run c).2 := by
  change (p.bind f).statements c = _
  induction p generalizing c with
  | done a => exact (Nat.zero_add _).symm
  | execute s rest ih =>
    simp only [bind, statements, run, ih]
    omega
  | read rest ih => exact ih _ _

@[simp] theorem stopAfter_zero (p : Script D α) (c : Connection D) : p.stopAfter 0 c = c := by
  induction p with
  | done a => rfl
  | execute s rest => rfl
  | read rest ih => exact ih _

/-- A script stopped no earlier than at its end has run to the end. -/
theorem stopAfter_of_le {n : Nat} (p : Script D α) {c : Connection D} (h : p.statements c ≤ n) :
    p.stopAfter n c = (p.run c).2 := by
  induction p generalizing n c with
  | done a => cases n <;> rfl
  | execute s rest ih =>
    cases n with
    | zero => exact absurd h (Nat.not_succ_le_zero _)
    | succ n => exact ih (Nat.le_of_succ_le_succ h)
  | read rest ih =>
    have := ih c.visible h
    cases n <;> exact this

/-- A stop before the end of the first of two scripts is a stop of that script. -/
theorem stopAfter_bind_of_le {n : Nat} (p : Script D α) (f : α → Script D β) {c : Connection D}
    (h : n ≤ p.statements c) : (p >>= f).stopAfter n c = p.stopAfter n c := by
  change (p.bind f).stopAfter n c = _
  induction p generalizing n c with
  | done a =>
    obtain rfl : n = 0 := Nat.le_zero.mp h
    exact stopAfter_zero _ _
  | execute s rest ih =>
    cases n with
    | zero => rfl
    | succ n => exact ih (Nat.le_of_succ_le_succ h)
  | read rest ih =>
    have := ih c.visible h
    cases n <;> exact this

/-- A stop after the end of the first of two scripts is a stop of the second. -/
theorem stopAfter_bind_of_ge {n : Nat} (p : Script D α) (f : α → Script D β) {c : Connection D}
    (h : p.statements c ≤ n) :
    (p >>= f).stopAfter n c = (f (p.run c).1).stopAfter (n - p.statements c) (p.run c).2 := by
  change (p.bind f).stopAfter n c = _
  induction p generalizing n c with
  | done a => cases n <;> rfl
  | execute s rest ih =>
    cases n with
    | zero => exact absurd h (Nat.not_succ_le_zero _)
    | succ n =>
      have hn : n + 1 - (rest.statements (c.execute s) + 1) = n - rest.statements (c.execute s) :=
        Nat.add_sub_add_right _ _ _
      change _ = (f _).stopAfter (n + 1 - (rest.statements (c.execute s) + 1)) _
      rw [hn]
      exact ih (Nat.le_of_succ_le_succ h)
  | read rest ih =>
    have := ih c.visible h
    cases n <;> exact this

/-! ## Transactions -/

/-- A script in which no statement is `COMMIT`. -/
def NoCommit : Script D α → Prop
  | .done _ => True
  | .execute s rest => s ≠ .commit ∧ rest.NoCommit
  | .read rest => ∀ d, (rest d).NoCommit

theorem NoCommit.bind {p : Script D α} {f : α → Script D β} (hp : p.NoCommit)
    (hf : ∀ a, (f a).NoCommit) : (p >>= f).NoCommit := by
  change (p.bind f).NoCommit
  induction p with
  | done a => exact hf a
  | execute s rest ih => exact ⟨hp.1, ih hp.2⟩
  | read rest ih => exact fun d => ih d (hp d)

theorem NoCommit.statement {s : Statement D} (hs : s ≠ .commit) :
    (Script.statement s).NoCommit := ⟨hs, trivial⟩

theorem NoCommit.query (f : D → α) : (Script.query f).NoCommit := fun _ => trivial

theorem NoCommit.pure (a : α) : (pure a : Script D α).NoCommit := trivial

theorem NoCommit.defineUnless (has : D → Bool) (f : D → D) :
    (Script.defineUnless has f).NoCommit := by
  intro d
  change (if has d then .done () else Script.statement (.definition f) : Script D Unit).NoCommit
  split
  · trivial
  · exact .statement nofun

/-- A stop inside an open transaction leaves the committed database as it was. -/
theorem NoCommit.committed_stopAfter {p : Script D α} (hp : p.NoCommit) {c : Connection D}
    (hopen : c.inTransaction = true) (n : Nat) : (p.stopAfter n c).committed = c.committed := by
  induction p generalizing n c with
  | done a => cases n <;> rfl
  | execute s rest ih =>
    cases n with
    | zero => rfl
    | succ n =>
      have hs := Connection.committed_execute hopen hp.1
      exact (ih hp.2 hs.2 n).trans hs.1
  | read rest ih =>
    have := ih c.visible (hp c.visible) hopen n
    cases n <;> exact this

/-- Until its `COMMIT` a transaction that is already open leaves the committed database as it was. -/
theorem NoCommit.committed_stopAfter_commit {p : Script D Unit} (hp : p.NoCommit) {c : Connection D}
    (hopen : c.inTransaction = true) {n : Nat}
    (hn : n < (do p; Script.statement .commit).statements c) :
    ((do p; Script.statement .commit).stopAfter n c).committed = c.committed := by
  rw [statements_bind] at hn
  have hle : n ≤ p.statements c := Nat.le_of_lt_succ hn
  rw [stopAfter_bind_of_le p _ hle]
  exact hp.committed_stopAfter hopen n

/-- A statement that opens a transaction on an idle connection. -/
def Opens (s : Statement D) : Prop :=
  ∀ d, ((Connection.idle d).execute s).committed = d ∧
    ((Connection.idle d).execute s).inTransaction = true

theorem opens_begin : Opens (.begin : Statement D) := fun _ => ⟨rfl, rfl⟩

theorem opens_modification (f : D → D) : Opens (.modification f) := fun _ => ⟨rfl, rfl⟩

/-- A whole transaction is there or it is not. -/
theorem crash_transaction {s : Statement D} {p : Script D Unit} (hs : Opens s) (hp : p.NoCommit)
    {d : D} {n : Nat}
    (hn : n < (do statement s; p; statement .commit).statements (.idle d)) :
    (do statement s; p; statement .commit).crash n d = d := by
  cases n with
  | zero => rw [crash, stopAfter_zero, Connection.committed_idle]
  | succ n =>
    obtain ⟨hcommitted, hopen⟩ := hs d
    have hn' := Nat.lt_of_succ_lt_succ hn
    exact (hp.committed_stopAfter_commit hopen hn').trans hcommitted

/-! ## Restarting -/

/-- Wherever the script is stopped, and where it ends, `goal` of the database is what it was at the
    start; it ends outside a transaction. -/
structure Restartable (goal : D → β) (p : Script D Unit) : Prop where
  ends : ∀ d, (p.run (.idle d)).2 = .idle (p.result d).2
  ended : ∀ d, goal (p.result d).2 = goal d
  crashed : ∀ d n, goal (p.crash n d) = goal d

namespace Restartable

variable {goal : D → β}

theorem bind {p q : Script D Unit} (hp : Restartable goal p) (hq : Restartable goal q) :
    Restartable goal (do p; q) where
  ends d := by
    rw [run_bind, hp.ends, hq.ends, result_bind]
  ended d := by
    rw [result_bind, hq.ended, hp.ended]
  crashed d n := by
    rcases Nat.le_total n (p.statements (.idle d)) with hn | hn
    · rw [crash, stopAfter_bind_of_le p _ hn]
      exact hp.crashed d n
    · rw [crash, stopAfter_bind_of_ge p _ hn, hp.ends]
      exact (hq.crashed _ _).trans (hp.ended d)

theorem defineUnless {has : D → Bool} {f : D → D}
    (h : ∀ d, has d = false → goal (f d) = goal d) :
    Restartable goal (Script.defineUnless has f) := by
  have hends : ∀ d, ((Script.defineUnless has f).run (.idle d)).2 =
      .idle ((Script.defineUnless has f).result d).2 := by
    intro d
    by_cases hd : has d = true <;> simp [Script.defineUnless, run, result, statement, hd, Statement.effect]
  have hended : ∀ d, goal ((Script.defineUnless has f).result d).2 = goal d := by
    intro d
    rw [result_defineUnless]
    by_cases hd : has d = true
    · rw [if_pos hd]
    · rw [if_neg hd]
      exact h d (Bool.not_eq_true _ ▸ hd)
  refine ⟨hends, hended, fun d n => ?_⟩
  cases n with
  | zero => rw [crash, stopAfter_zero, Connection.committed_idle]
  | succ n =>
    have hle : (Script.defineUnless has f).statements (.idle d) ≤ n + 1 := by
      by_cases hd : has d = true <;> simp [Script.defineUnless, statements, statement, hd]
    rw [crash, stopAfter_of_le _ hle, hends, Connection.committed_idle, hended]

theorem transaction {s : Statement D} {p : Script D Unit} (hs : Opens s) (hp : p.NoCommit)
    (h : ∀ d, goal ((do statement s; p; statement .commit).result d).2 = goal d) :
    Restartable goal (do statement s; p; statement .commit) := by
  have hends : ∀ d, ((do statement s; p; statement .commit : Script D Unit).run (.idle d)).2 =
      .idle ((do statement s; p; statement .commit).result d).2 := by
    intro d
    have := (run_eq_result p ((Connection.idle d).execute s)).2
    rw [Connection.visible_execute, Connection.visible_idle] at this
    simp [run, statement, result, Statement.effect, this]
  refine ⟨hends, h, fun d n => ?_⟩
  rcases Nat.lt_or_ge n ((do statement s; p; statement .commit).statements (.idle d)) with hn | hn
  · rw [crash_transaction hs hp hn]
  · rw [crash, stopAfter_of_le _ hn, hends, Connection.committed_idle]
    exact h d

end Restartable

end Script
end ImplicitTransaction
