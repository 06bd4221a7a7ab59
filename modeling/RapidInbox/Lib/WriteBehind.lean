import Mathlib.Data.List.Basic

/-!
# A store, a copy of it and a value published from it

Writes to a store are queued and done in the order of their submission, and the results arrive in
that order.  The result of a write changes a copy of the store in the same way, and then queues the
publication of what the store says at that moment.  Several writes may be under way at once; when
none is, the copy is the store and the published value is the one of the store.
-/

namespace WriteBehind

/-- A write, or the publication of a value read before. -/
inductive Request (ω δ : Type) where
  | write (w : ω)
  | publish (d : δ)

/-- The store, its copy, the published value, the requests not yet done and the results that have not
    arrived yet. -/
structure State (σ ω δ : Type) where
  store : σ
  copy : σ
  published : δ
  queue : List (Request ω δ)
  results : List (Request ω δ)

variable {σ ω δ : Type} (apply : σ → ω → σ) (view : σ → δ)

/-- The states reached from a state by submitting some writes. -/
inductive Reaches (start : State σ ω δ) : List ω → State σ ω δ → Prop where
  | start : Reaches start [] start
  | submit {ws : List ω} {s : State σ ω δ} (w : ω) (hreach : Reaches start ws s) :
      Reaches start (ws ++ [w]) { s with queue := s.queue ++ [.write w] }
  | write {ws : List ω} {s : State σ ω δ} {w : ω} {rest : List (Request ω δ)}
      (hreach : Reaches start ws s) (hqueue : s.queue = .write w :: rest) :
      Reaches start ws
        { s with store := apply s.store w, queue := rest, results := s.results ++ [.write w] }
  | publish {ws : List ω} {s : State σ ω δ} {d : δ} {rest : List (Request ω δ)}
      (hreach : Reaches start ws s) (hqueue : s.queue = .publish d :: rest) :
      Reaches start ws
        { s with published := d, queue := rest, results := s.results ++ [.publish d] }
  | written {ws : List ω} {s : State σ ω δ} {w : ω} {rest : List (Request ω δ)}
      (hreach : Reaches start ws s) (hresults : s.results = .write w :: rest) :
      Reaches start ws
        { s with
          copy := apply s.copy w
          results := rest
          queue := s.queue ++ [.publish (view s.store)] }
  | told {ws : List ω} {s : State σ ω δ} {d : δ} {rest : List (Request ω δ)}
      (hreach : Reaches start ws s) (hresults : s.results = .publish d :: rest) :
      Reaches start ws { s with results := rest }

/-- The writes among some requests. -/
def writes : List (Request ω δ) → List ω
  | [] => []
  | .write w :: rest => w :: writes rest
  | .publish _ :: rest => writes rest

/-- What is published once some requests are done. -/
def lastPublished (d : δ) : List (Request ω δ) → δ
  | [] => d
  | .write _ :: rest => lastPublished d rest
  | .publish d' :: rest => lastPublished d' rest

@[simp] theorem writes_append (rs rs' : List (Request ω δ)) :
    writes (rs ++ rs') = writes rs ++ writes rs' := by
  induction rs with
  | nil => rfl
  | cons r rs ih => cases r <;> simp [writes, ih]

@[simp] theorem lastPublished_append_write (d : δ) (rs : List (Request ω δ)) (w : ω) :
    lastPublished d (rs ++ [.write w]) = lastPublished d rs := by
  induction rs generalizing d with
  | nil => rfl
  | cons r rs ih => cases r <;> exact ih _

@[simp] theorem lastPublished_append_publish (d d' : δ) (rs : List (Request ω δ)) :
    lastPublished d (rs ++ [.publish d']) = d' := by
  induction rs generalizing d with
  | nil => rfl
  | cons r rs ih => cases r <;> exact ih _

/-- The copy lags behind the store by the results that have not arrived, and the publication of a
    value that is no longer the one of the store is not the last. -/
structure State.Coherent (s : State σ ω δ) : Prop where
  copy : (writes s.results).foldl apply s.copy = s.store
  published : writes s.results ≠ [] ∨ lastPublished s.published s.queue = view s.store

variable {apply view} {start s : State σ ω δ} {ws : List ω}

theorem Reaches.coherent (hstart : start.Coherent apply view) (h : Reaches apply view start ws s) :
    s.Coherent apply view := by
  induction h with
  | start => exact hstart
  | submit w _ ih => exact ⟨ih.copy, by simpa using ih.published⟩
  | write _ hqueue ih =>
    refine ⟨?_, .inl ?_⟩
    · simp [writes, ih.copy]
    · simp [writes]
  | publish _ hqueue ih =>
    refine ⟨?_, ?_⟩
    · simpa [writes] using ih.copy
    · have hpublished := ih.published
      rw [hqueue] at hpublished
      simpa [writes, lastPublished] using hpublished
  | written _ hresults ih =>
    refine ⟨?_, .inr (lastPublished_append_publish _ _ _)⟩
    have hcopy := ih.copy
    rw [hresults] at hcopy
    exact hcopy
  | told _ hresults ih =>
    obtain ⟨hcopy, hpublished⟩ := ih
    rw [hresults] at hcopy hpublished
    exact ⟨hcopy, hpublished⟩

/-- No write is lost, and they take effect in the order of their submission. -/
theorem Reaches.inOrder (h : Reaches apply view start ws s) :
    (writes s.queue).foldl apply s.store =
      ws.foldl apply ((writes start.queue).foldl apply start.store) := by
  induction h with
  | start => rfl
  | submit w _ ih => simp [writes, ih]
  | write _ hqueue ih =>
    rw [hqueue] at ih
    exact ih
  | publish _ hqueue ih =>
    rw [hqueue] at ih
    exact ih
  | written _ _ ih => simpa [writes] using ih
  | told _ _ ih => exact ih

/-- With no request under way the copy and the published value are up to date. -/
theorem Reaches.settled (hstart : start.Coherent apply view) (h : Reaches apply view start ws s)
    (hqueue : s.queue = []) (hresults : s.results = []) :
    s.copy = s.store ∧ s.published = view s.store := by
  obtain ⟨hcopy, hpublished⟩ := h.coherent hstart
  rw [hresults] at hcopy hpublished
  rw [hqueue] at hpublished
  exact ⟨hcopy, hpublished.resolve_left fun hne => hne rfl⟩

end WriteBehind
