import Mathlib.Logic.Basic

/-!
# Computations that may fail

Inversion of a computation that succeeds: every step of it succeeded.
-/

variable {ε α β : Type} {b : β}

theorem Except.ok_bind (a : α) (f : α → Except ε β) : (Except.ok a >>= f) = f a := rfl

/-- Peel off the first step of a computation that succeeds. -/
theorem Except.bind_ok_iff {x : Except ε α} {f : α → Except ε β} :
    (x >>= f) = .ok b ↔ ∃ a, x = .ok a ∧ f a = .ok b := by
  cases x with
  | error e => exact ⟨nofun, fun ⟨_, h, _⟩ => nomatch h⟩
  | ok a => exact ⟨fun h => ⟨a, rfl, h⟩, fun ⟨_, h, h'⟩ => Except.ok.inj h ▸ h'⟩

theorem Except.map_ok_iff {x : Except ε α} {f : α → β} :
    x.map f = .ok b ↔ ∃ a, x = .ok a ∧ f a = b := by
  cases x with
  | error e => exact ⟨nofun, fun ⟨_, h, _⟩ => nomatch h⟩
  | ok a => exact ⟨fun h => ⟨a, rfl, Except.ok.inj h⟩, fun ⟨_, h, h'⟩ => congrArg _ (Except.ok.inj h ▸ h')⟩

/-- A loop whose turns succeed under a condition each, with a known result. -/
theorem Except.foldlM_ok_iff {f : β → α → Except ε β} {g : β → α → β} {P : α → Prop} {xs : List α}
    (hf : ∀ a ∈ xs, ∀ b b', f b a = .ok b' ↔ P a ∧ b' = g b a) {b b' : β} :
    xs.foldlM f b = .ok b' ↔ (∀ a ∈ xs, P a) ∧ b' = xs.foldl g b := by
  induction xs generalizing b with
  | nil =>
    rw [List.foldlM_nil, List.foldl_nil]
    exact ⟨fun h => ⟨nofun, (Except.ok.inj h).symm⟩, fun h => congrArg Except.ok h.2.symm⟩
  | cons a xs ih =>
    obtain ⟨hturn, hturns⟩ := List.forall_mem_cons.mp hf
    rw [List.foldlM_cons, Except.bind_ok_iff, List.foldl_cons]
    constructor
    · rintro ⟨b₁, hfirst, hrest⟩
      obtain ⟨ha, rfl⟩ := (hturn _ _).mp hfirst
      obtain ⟨hxs, hb'⟩ := (ih hturns).mp hrest
      exact ⟨List.forall_mem_cons.mpr ⟨ha, hxs⟩, hb'⟩
    · rintro ⟨hall, hb'⟩
      obtain ⟨ha, hxs⟩ := List.forall_mem_cons.mp hall
      exact ⟨g b a, (hturn _ _).mpr ⟨ha, rfl⟩, (ih hturns).mpr ⟨hxs, hb'⟩⟩

theorem Except.mapM_ok_iff {f : α → Except ε β} {g : α → β} {P : α → Prop}
    (hf : ∀ a b, f a = .ok b ↔ P a ∧ b = g a) {xs : List α} {ys : List β} :
    xs.mapM f = .ok ys ↔ (∀ a ∈ xs, P a) ∧ ys = xs.map g := by
  induction xs generalizing ys with
  | nil =>
    rw [List.mapM_nil, List.map_nil]
    exact ⟨fun h => ⟨nofun, (Except.ok.inj h).symm⟩, fun h => congrArg Except.ok h.2.symm⟩
  | cons a xs ih =>
    rw [List.mapM_cons, Except.bind_ok_iff, List.map_cons]
    constructor
    · rintro ⟨b, hb, hrest⟩
      obtain ⟨ha, rfl⟩ := (hf _ _).mp hb
      obtain ⟨bs, hbs, hys⟩ := Except.bind_ok_iff.mp hrest
      obtain ⟨hxs, rfl⟩ := ih.mp hbs
      exact ⟨List.forall_mem_cons.mpr ⟨ha, hxs⟩, (Except.ok.inj hys).symm⟩
    · rintro ⟨hall, rfl⟩
      obtain ⟨ha, hxs⟩ := List.forall_mem_cons.mp hall
      exact ⟨g a, (hf _ _).mpr ⟨ha, rfl⟩, Except.bind_ok_iff.mpr ⟨_, ih.mpr ⟨hxs, rfl⟩, rfl⟩⟩

theorem Except.forM_ok_iff {f : α → Except ε Unit} {P : α → Prop}
    (hf : ∀ a u, f a = .ok u ↔ P a) {xs : List α} {u : Unit} :
    xs.forM f = .ok u ↔ ∀ a ∈ xs, P a := by
  induction xs with
  | nil => exact ⟨fun _ => nofun, fun _ => rfl⟩
  | cons a xs ih =>
    have hunfold : (a :: xs).forM f = f a >>= fun _ => xs.forM f := rfl
    rw [hunfold, Except.bind_ok_iff, List.forall_mem_cons]
    constructor
    · rintro ⟨_, ha, hxs⟩
      exact ⟨(hf _ _).mp ha, ih.mp hxs⟩
    · rintro ⟨ha, hxs⟩
      exact ⟨(), (hf _ _).mpr ha, ih.mpr hxs⟩
