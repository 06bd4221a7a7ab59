import Mathlib.Data.List.Basic

/-!
# Logs of events

Events of several sources in the order in which they happened, each with its source and its time.
-/

namespace EventLog

variable {κ τ : Type} [DecidableEq κ]

/-- When the events of a source happened. -/
def times (key : κ) (log : List (κ × τ)) : List τ := (log.filter fun e => e.1 = key).map Prod.snd

variable {key key' : κ} {log : List (κ × τ)} {t : τ}

theorem times_append (key : κ) (log more : List (κ × τ)) :
    times key (log ++ more) = times key log ++ times key more := by
  rw [times, List.filter_append, List.map_append]
  rfl

theorem times_singleton (key key' : κ) (t : τ) :
    times key' [(key, t)] = if key' = key then [t] else [] := by
  unfold times
  by_cases h : key' = key
  · rw [if_pos h, List.filter_cons_of_pos (by simpa using h.symm)]
    rfl
  · rw [if_neg h, List.filter_cons_of_neg (by simpa using Ne.symm h)]
    rfl

/-- One more event, after the first `n`. -/
theorem times_drop_concat {n : Nat} (h : n ≤ log.length) (key key' : κ) (t : τ) :
    times key' ((log ++ [(key, t)]).drop n) =
      times key' (log.drop n) ++ if key' = key then [t] else [] := by
  rw [List.drop_append_of_le_length h, times_append, times_singleton]

theorem mem_of_mem_times (h : t ∈ times key log) : (key, t) ∈ log := by
  obtain ⟨⟨key', t'⟩, hmem, rfl⟩ := List.mem_map.mp h
  obtain ⟨hmem, hkey⟩ := List.mem_filter.mp hmem
  have hkey : key' = key := by simpa using hkey
  exact hkey ▸ hmem

end EventLog
