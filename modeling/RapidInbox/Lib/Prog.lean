import Mathlib.Logic.Basic

/-!
# Threads over shared operations

A thread is a finite tree: it returns, or it calls one operation of the state it shares with other
threads and goes on with the answer.  Every node carries the thread's private state at that point,
so a scheduler that interleaves threads can inspect all of them between any two calls.

`Act` is the state-passing monad in which such trees are written.  `Prog.Follows` is the demonic
reading of a tree against a `Protocol`: a ghost value says what the thread owns of the shared state,
each call has a precondition on it, and every answer the protocol allows must be handled.
-/

namespace Conc

/-- The operations a thread may call, with the type of each answer. -/
structure Sig where
  Op : Type
  Ans : Op → Type

/-- A thread with private state `σ` that will return a value of type `α`.  `fault` is the thread
    that has left the language's defined behaviour. -/
inductive Prog (S : Sig) (σ α : Type) where
  | ret (s : σ) (a : α)
  | fault
  | call (s : σ) (op : S.Op) (k : S.Ans op → Prog S σ α)

variable {S : Sig} {σ α β γ δ : Type}

namespace Prog

/-- Run `f` on the state and value a thread returns. -/
def bind : Prog S σ α → (σ → α → Prog S σ β) → Prog S σ β
  | .ret s a, f => f s a
  | .fault, _ => .fault
  | .call s op k, f => .call s op (fun r => (k r).bind f)

theorem bind_ret (p : Prog S σ α) : p.bind .ret = p := by
  induction p with
  | ret s a => rfl
  | fault => rfl
  | call s op k ih => exact congrArg (Prog.call s op) (funext ih)

theorem bind_assoc (p : Prog S σ α) (f : σ → α → Prog S σ β) (g : σ → β → Prog S σ δ) :
    (p.bind f).bind g = p.bind fun s a => (f s a).bind g := by
  induction p with
  | ret s a => rfl
  | fault => rfl
  | call s op k ih => exact congrArg (Prog.call s op) (funext ih)

/-- The private state a thread shows to the scheduler; a faulted thread shows none. -/
def state? : Prog S σ α → Option σ
  | .ret s _ => some s
  | .fault => none
  | .call s _ _ => some s

/-- The operation a thread is about to perform. -/
def pending? : Prog S σ α → Option S.Op
  | .call _ op _ => some op
  | _ => none

@[simp] theorem state?_ret (s : σ) (a : α) : (Prog.ret s a : Prog S σ α).state? = some s := rfl

@[simp] theorem state?_call (s : σ) (op : S.Op) (k : S.Ans op → Prog S σ α) :
    (Prog.call s op k).state? = some s := rfl

end Prog

/-- Thread bodies, in state-passing style. -/
def Act (S : Sig) (σ α : Type) : Type := σ → Prog S σ α

namespace Act

instance : Monad (Act S σ) where
  pure a := fun s => .ret s a
  bind m f := fun s => (m s).bind (fun s' a => f a s')

instance : LawfulMonad (Act S σ) := LawfulMonad.mk' (Act S σ)
  (fun m => funext fun s => Prog.bind_ret (m s))
  (fun _ _ => rfl)
  (fun m f g => funext fun s =>
    Prog.bind_assoc (m s) (fun s' a => f a s') (fun s' b => g b s'))

/-- Read the private state. -/
def get : Act S σ σ := fun s => .ret s s

/-- Change the private state. -/
def modify (f : σ → σ) : Act S σ Unit := fun s => .ret (f s) ()

/-- Perform one shared operation. -/
def call (op : S.Op) : Act S σ (S.Ans op) := fun s => .call s op (fun r => .ret s r)

/-- Leave the defined behaviour of the language. -/
def fault : Act S σ α := fun _ => .fault

end Act

/-- What threads may do to the shared state, through a ghost value of what each one owns: a call
    needs `pre`, and an answer moves the ghost by `post`.  `agrees` ties the private state visible
    at a call to the ghost. -/
structure Protocol (S : Sig) (σ γ : Type) where
  agrees : σ → γ → Prop
  pre : S.Op → σ → γ → Prop
  post : (op : S.Op) → γ → S.Ans op → γ → Prop

namespace Prog

/-- The thread never faults, calls operations only as the protocol allows, and ends in `Q`. -/
def Follows (P : Protocol S σ γ) (Q : σ → α → γ → Prop) : Prog S σ α → γ → Prop
  | .ret s a, g => Q s a g
  | .fault, _ => False
  | .call s op k, g =>
    P.agrees s g ∧ P.pre op s g ∧ ∀ r g', P.post op g r g' → (k r).Follows P Q g'

variable {P : Protocol S σ γ} {Q : σ → α → γ → Prop} {R : σ → β → γ → Prop}

/-- Following the protocol is compositional in sequencing. -/
theorem follows_bind (p : Prog S σ α) (f : σ → α → Prog S σ β) (g : γ) :
    (p.bind f).Follows P R g ↔ p.Follows P (fun s a g => (f s a).Follows P R g) g := by
  induction p generalizing g with
  | ret s a => exact Iff.rfl
  | fault => exact Iff.rfl
  | call s op k ih =>
    constructor
    · rintro ⟨agree, pre, rest⟩
      exact ⟨agree, pre, fun r g' hp => (ih r g').mp (rest r g' hp)⟩
    · rintro ⟨agree, pre, rest⟩
      exact ⟨agree, pre, fun r g' hp => (ih r g').mpr (rest r g' hp)⟩

/-- A weaker postcondition is met too. -/
theorem Follows.mono {Q' : σ → α → γ → Prop} (hQ : ∀ s a g, Q s a g → Q' s a g)
    {p : Prog S σ α} {g : γ} (h : p.Follows P Q g) : p.Follows P Q' g := by
  induction p generalizing g with
  | ret s a => exact hQ s a g h
  | fault => exact h
  | call s op k ih => exact ⟨h.1, h.2.1, fun r g' hp => ih r (h.2.2 r g' hp)⟩

/-- One call of a thread that follows the protocol leaves a thread that follows it. -/
theorem Follows.step {s : σ} {op : S.Op} {k : S.Ans op → Prog S σ α} {g g' : γ} {r : S.Ans op}
    (h : (Prog.call s op k).Follows P Q g) (hp : P.post op g r g') : (k r).Follows P Q g' :=
  h.2.2 r g' hp

/-- Two postconditions hold together. -/
theorem Follows.and {Q' : σ → α → γ → Prop} {p : Prog S σ α} {g : γ} (h : p.Follows P Q g)
    (h' : p.Follows P Q' g) : p.Follows P (fun s a g => Q s a g ∧ Q' s a g) g := by
  induction p generalizing g with
  | ret s a => exact ⟨h, h'⟩
  | fault => exact h
  | call s op k ih => exact ⟨h.1, h.2.1, fun r g' hp => ih r (h.2.2 r g' hp) (h'.2.2 r g' hp)⟩

/-- What a thread returns when every operation has one answer. -/
def answered (answer : (op : S.Op) → S.Ans op) : Prog S σ α → Option (σ × α)
  | .ret s a => some (s, a)
  | .fault => none
  | .call _ op k => (k (answer op)).answered answer

/-- A thread that follows the protocol returns, whatever it is answered. -/
theorem Follows.answered {answer : (op : S.Op) → S.Ans op}
    (hanswer : ∀ op g, ∃ g', P.post op g (answer op) g') {p : Prog S σ α} {g : γ}
    (h : p.Follows P Q g) : ∃ s a g', p.answered answer = some (s, a) ∧ Q s a g' := by
  induction p generalizing g with
  | ret s a => exact ⟨s, a, g, rfl, h⟩
  | fault => exact absurd h id
  | call s op k ih =>
    obtain ⟨g', hp⟩ := hanswer op g
    exact ih (answer op) (h.step hp)

end Prog

/-- The weakest precondition of a thread body for the postcondition `Q`. -/
def Act.wp (P : Protocol S σ γ) (m : Act S σ α) (Q : σ → α → γ → Prop) (s : σ) (g : γ) : Prop :=
  (m s).Follows P Q g

namespace Act

variable {P : Protocol S σ γ} {Q : σ → α → γ → Prop} {R : σ → β → γ → Prop} {s : σ} {g : γ}

@[simp] theorem wp_pure (a : α) : wp P (pure a) Q s g ↔ Q s a g := Iff.rfl

@[simp] theorem wp_bind (m : Act S σ α) (f : α → Act S σ β) :
    wp P (m >>= f) R s g ↔ wp P m (fun s a g => wp P (f a) R s g) s g :=
  Prog.follows_bind (m s) (fun s' a => f a s') g

@[simp] theorem wp_get {Q : σ → σ → γ → Prop} : wp P get Q s g ↔ Q s s g := Iff.rfl

@[simp] theorem wp_modify (f : σ → σ) {Q : σ → Unit → γ → Prop} :
    wp P (modify f) Q s g ↔ Q (f s) () g := Iff.rfl

@[simp] theorem wp_fault : wp P fault Q s g ↔ False := Iff.rfl

@[simp] theorem wp_call (op : S.Op) {Q : σ → S.Ans op → γ → Prop} :
    wp P (call op) Q s g ↔
      P.agrees s g ∧ P.pre op s g ∧ ∀ r g', P.post op g r g' → Q s r g' := Iff.rfl

@[simp] theorem wp_ite (c : Prop) [Decidable c] (m n : Act S σ α) :
    wp P (if c then m else n) Q s g ↔ if c then wp P m Q s g else wp P n Q s g := by
  split <;> exact Iff.rfl

/-- A body that leaves the private state and the ghost as they were. -/
def Keeps (P : Protocol S σ γ) (m : Act S σ α) : Prop :=
  ∀ s g, P.agrees s g → wp P m (fun s' _ g' => s' = s ∧ g' = g) s g

theorem Keeps.wp {m : Act S σ α} (h : Keeps P m) (hagree : P.agrees s g) (hQ : ∀ a, Q s a g) :
    wp P m Q s g := by
  refine Prog.Follows.mono ?_ (h s g hagree)
  rintro s' a g' ⟨rfl, rfl⟩
  exact hQ a

/-- A body that, from this state and this ghost, leaves both as they were. -/
def KeepsAt (P : Protocol S σ γ) (m : Act S σ α) (s : σ) (g : γ) : Prop :=
  wp P m (fun s' _ g' => s' = s ∧ g' = g) s g

theorem KeepsAt.wp {m : Act S σ α} (h : KeepsAt P m s g) (hQ : ∀ a, Q s a g) : wp P m Q s g := by
  refine Prog.Follows.mono ?_ h
  rintro s' a g' ⟨rfl, rfl⟩
  exact hQ a

theorem KeepsAt.pure (a : α) : KeepsAt P (Pure.pure a : Act S σ α) s g := ⟨rfl, rfl⟩

theorem KeepsAt.bind {m : Act S σ α} {f : α → Act S σ β} (hm : KeepsAt P m s g)
    (hf : ∀ a, KeepsAt P (f a) s g) : KeepsAt P (m >>= f) s g := by
  unfold KeepsAt
  rw [wp_bind]
  exact hm.wp hf

theorem KeepsAt.call {op : S.Op} (hagree : P.agrees s g) (hpre : P.pre op s g)
    (hpost : ∀ r g', P.post op g r g' → g' = g) :
    KeepsAt P (Act.call op : Act S σ (S.Ans op)) s g :=
  ⟨hagree, hpre, fun r g' hp => ⟨rfl, hpost r g' hp⟩⟩

theorem KeepsAt.ite (c : Prop) [Decidable c] {m n : Act S σ α} (hm : KeepsAt P m s g)
    (hn : KeepsAt P n s g) : KeepsAt P (if c then m else n) s g := by
  split
  · exact hm
  · exact hn

theorem Keeps.pure (a : α) : Keeps P (Pure.pure a : Act S σ α) :=
  fun _ _ _ => ⟨rfl, rfl⟩

theorem Keeps.bind {m : Act S σ α} {f : α → Act S σ β} (hm : Keeps P m)
    (hf : ∀ a, Keeps P (f a)) : Keeps P (m >>= f) := by
  intro s g hagree
  rw [wp_bind]
  exact hm.wp hagree fun a => hf a s g hagree

theorem Keeps.call {op : S.Op} (hpre : ∀ s g, P.agrees s g → P.pre op s g)
    (hpost : ∀ g r g', P.post op g r g' → g' = g) : Keeps P (Act.call op : Act S σ (S.Ans op)) :=
  fun s g hagree => ⟨hagree, hpre s g hagree, fun r g' hp => ⟨rfl, hpost g r g' hp⟩⟩

theorem Keeps.ite (c : Prop) [Decidable c] {m n : Act S σ α} (hm : Keeps P m) (hn : Keeps P n) :
    Keeps P (if c then m else n) := by
  split
  · exact hm
  · exact hn

end Act

end Conc
