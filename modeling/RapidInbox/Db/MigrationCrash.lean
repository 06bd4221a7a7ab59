import RapidInbox.Db.MigrationSteps
import RapidInbox.Lib.Run

/-!
# Crashes of the migration

`initialize_database` stopped between two of its statements and run again.  Every stop is harmless but
one kind: `ALTER TABLE message_deliveries ADD COLUMN mailbox_generation` commits by itself, the
`UPDATE` that fills the column belongs to the transaction the final commit ends, and the rerun skips
both because the column is there.
-/

namespace RapidInbox

open ImplicitTransaction

theorem Widened.hasColumn_create {ρ α : Type} {t : Widened ρ α} (h : t.hasColumn = true) :
    t.create.hasColumn = true := by
  cases t with
  | absent => exact nomatch h
  | narrow rows => exact nomatch h
  | wide rows => rfl

namespace Migration

open Script LegacyDatabase

/-! ## The parts that can be restarted -/

theorem migrated_congr {d e : LegacyDatabase} (h : d.prepared = e.prepared) :
    migrated d = migrated e := by
  rw [migrated_eq, migrated_eq, h]

theorem prepared_created (d : LegacyDatabase) : d.created.prepared = d.prepared := by
  obtain ⟨_, _, _, _, mailboxes, deliveries, jobs, keys, _, _, buckets, _⟩ := d
  simp only [prepared, created, createDeliveries, Widened.create_create, MetricBuckets.create_create]
  rfl

theorem noCommit_createTables : createTables.NoCommit := by
  repeat' first
    | exact NoCommit.statement nofun
    | refine NoCommit.bind (NoCommit.statement nofun) fun _ => ?_

theorem restartable_schemaScript : Restartable prepared schemaScript := by
  refine .transaction opens_begin noCommit_createTables fun d => ?_
  change (schemaScript.result d).2.prepared = _
  rw [result_schemaScript]
  exact prepared_created d

theorem restartable_addPlainColumns : Restartable prepared addPlainColumns := by
  refine .bind (.defineUnless fun d _ => rfl) (.bind (.defineUnless fun d _ => rfl)
    (.bind (.defineUnless fun d _ => rfl) (.defineUnless fun d _ => ?_)))
  obtain ⟨_, _, _, _, mailboxes, _⟩ := d
  cases mailboxes <;> rfl

theorem restartable_beforeMailboxGeneration : Restartable prepared beforeMailboxGeneration :=
  restartable_schemaScript.bind restartable_addPlainColumns

theorem restartable_addTargetGeneration : Restartable prepared addTargetGeneration := by
  refine .defineUnless fun d _ => ?_
  obtain ⟨_, _, _, _, _, _, jobs, _⟩ := d
  cases jobs <;> rfl

/-! ## The last transaction -/

theorem noCommit_replaceDeliveryIndexes : replaceDeliveryIndexes.NoCommit := by
  repeat' first
    | exact NoCommit.statement nofun
    | refine NoCommit.bind (NoCommit.statement nofun) fun _ => ?_

theorem noCommit_addDomainGrantMode : addDomainGrantMode.NoCommit := by
  intro d
  by_cases h : d.apiKeys.hasColumn = true
  · simp only [h, if_true]
    exact .pure ()
  · simp only [h]
    exact .bind (.statement nofun) fun _ => .statement nofun

theorem noCommit_backfillMailMetricBuckets (received rejected : Bool) :
    (backfillMailMetricBuckets received rejected).NoCommit := by
  refine .bind (.query _) fun wasEmpty => ?_
  cases wasEmpty <;> cases received <;> cases rejected <;> repeat' first
    | exact NoCommit.statement nofun
    | exact NoCommit.pure ()
    | refine NoCommit.bind (NoCommit.statement nofun) fun _ => ?_

theorem noCommit_addMetricBuckets : addMetricBuckets.NoCommit := by
  refine .bind (.statement nofun) fun _ => .bind (.statement nofun) fun _ =>
    .bind (.query _) fun addedReceived => .bind (.query _) fun addedRejected => ?_
  cases addedReceived <;> cases addedRejected <;> repeat' first
    | exact noCommit_backfillMailMetricBuckets _ _
    | refine NoCommit.bind (NoCommit.statement nofun) fun _ => ?_

theorem noCommit_migrateRows : migrateRows.NoCommit :=
  .bind noCommit_replaceDeliveryIndexes fun _ =>
    .bind noCommit_addDomainGrantMode fun _ => noCommit_addMetricBuckets

/-- A crash of the last transaction, when no earlier step has opened it. -/
theorem crash_advanceAndCommit {d : LegacyDatabase} {n : Nat}
    (hn : n < advanceAndCommit.statements (.idle d)) : advanceAndCommit.crash n d = d :=
  crash_transaction (opens_modification _) noCommit_migrateRows hn

/-- A crash after the generations: the target column may be there, and nothing else. -/
theorem prepared_crash_after_generations {d : LegacyDatabase} {n : Nat}
    (hn : n < (do addTargetGeneration; advanceAndCommit).statements (.idle d)) :
    ((do addTargetGeneration; advanceAndCommit).crash n d).prepared = d.prepared := by
  have htarget := restartable_addTargetGeneration
  rcases Nat.le_total n (addTargetGeneration.statements (.idle d)) with hle | hge
  · rw [crash, stopAfter_bind_of_le _ _ hle]
    exact htarget.crashed d n
  · rw [statements_bind, htarget.ends] at hn
    rw [crash, stopAfter_bind_of_ge _ _ hge, htarget.ends]
    have hcrash := crash_advanceAndCommit (n := n - addTargetGeneration.statements (.idle d))
      (d := (addTargetGeneration.result d).2) (by omega)
    rw [crash] at hcrash
    rw [hcrash]
    exact htarget.ended d

/-- The database with the generation column of the deliveries, and every delivery without one. -/
def unfilled (d : LegacyDatabase) : LegacyDatabase :=
  { d with deliveries := d.deliveries.addColumn (-1) }

/-- The statements after the `ALTER`: the transaction the `UPDATE` of the deliveries opens. -/
def fillAndCommit : Script LegacyDatabase Unit := do
  statement (.modification fillMailboxGenerations)
  (do
    addTargetGeneration
    statement (.modification advanceMailboxes)
    migrateRows)
  statement .commit

theorem addMailboxGeneration_bind (rest : Script LegacyDatabase Unit) :
    (do addMailboxGeneration; rest) = .read fun d =>
      if d.deliveries.hasColumn then rest
      else .execute (.definition unfilled) (do statement (.modification fillMailboxGenerations); rest) := by
  refine congrArg Script.read (funext fun d => ?_)
  by_cases h : d.deliveries.hasColumn = true
  · simp only [h, if_true]
    rfl
  · simp only [h]
    rfl

/-- The rest of the script where the column is missing. -/
theorem script_of_missing {d : LegacyDatabase} (hcolumn : d.deliveries.hasColumn = false) (n : Nat) :
    (do addMailboxGeneration; addTargetGeneration; advanceAndCommit).statements (.idle d) =
        fillAndCommit.statements (.idle (unfilled d)) + 1 ∧
      (do addMailboxGeneration; addTargetGeneration; advanceAndCommit).crash (n + 1) d =
        fillAndCommit.crash n (unfilled d) := by
  have hassoc : fillAndCommit = (do
      statement (.modification fillMailboxGenerations)
      addTargetGeneration
      advanceAndCommit) := by
    simp only [fillAndCommit, advanceAndCommit, bind_assoc]
  rw [hassoc, addMailboxGeneration_bind]
  constructor
  · rw [statements, Connection.visible_idle, hcolumn]
    rfl
  · rw [crash, stopAfter, Connection.visible_idle, hcolumn]
    rfl

/-- From the `ALTER` on, a crash leaves the column unfilled. -/
theorem crash_unfilled {d : LegacyDatabase} (hcolumn : d.deliveries.hasColumn = false) {n : Nat}
    (hn : n + 1 < (do addMailboxGeneration; addTargetGeneration; advanceAndCommit).statements
      (.idle d)) :
    (do addMailboxGeneration; addTargetGeneration; advanceAndCommit).crash (n + 1) d = unfilled d := by
  obtain ⟨hstatements, hcrash⟩ := script_of_missing hcolumn n
  rw [hstatements] at hn
  rw [hcrash]
  refine crash_transaction (opens_modification _) ?_ (Nat.lt_of_succ_lt_succ hn)
  exact .bind (.defineUnless _ _) fun _ =>
    .bind (.statement nofun) fun _ => noCommit_migrateRows

/-! ## A crash anywhere -/

/-- The crash does not fall between the commit of the generation column and the commit of its values,
    or there is no such moment, or no delivery to fill. -/
def GenerationsWhole (d : LegacyDatabase) (n : Nat) : Prop :=
  d.deliveries.hasColumn = true ∨ d.deliveries.rows = [] ∨
    n ≤ beforeMailboxGeneration.statements (.idle d) ∨
    initializeDatabase.statements (.idle d) ≤ n

instance (d : LegacyDatabase) (n : Nat) : Decidable (GenerationsWhole d n) :=
  inferInstanceAs (Decidable (_ ∨ _ ∨ _ ∨ _))

theorem prepared_unfilled_of_nil {d : LegacyDatabase} (h : d.deliveries.rows = []) :
    (unfilled d).prepared = d.prepared := by
  obtain ⟨_, _, _, _, _, deliveries, _⟩ := d
  cases deliveries with
  | absent => rfl
  | narrow rows =>
    cases rows with
    | nil => rfl
    | cons row rows => exact nomatch h
  | wide rows => rfl

/-- The script after the columns that come first. -/
abbrev generationsAndRows : Script LegacyDatabase Unit := do
  addMailboxGeneration
  addTargetGeneration
  advanceAndCommit

theorem crash_of_le {d : LegacyDatabase} {n : Nat}
    (hn : n ≤ beforeMailboxGeneration.statements (.idle d)) :
    (initializeDatabase.crash n d).prepared = d.prepared := by
  rw [crash, initializeDatabase, stopAfter_bind_of_le _ _ hn]
  exact restartable_beforeMailboxGeneration.crashed d n

theorem statements_initializeDatabase (d : LegacyDatabase) :
    initializeDatabase.statements (.idle d) = beforeMailboxGeneration.statements (.idle d) +
      generationsAndRows.statements (.idle d.created.withPlainColumns) := by
  rw [initializeDatabase, statements_bind, restartable_beforeMailboxGeneration.ends,
    result_beforeMailboxGeneration]

theorem crash_of_ge {d : LegacyDatabase} {n : Nat}
    (hn : beforeMailboxGeneration.statements (.idle d) ≤ n) :
    initializeDatabase.crash n d =
      generationsAndRows.crash (n - beforeMailboxGeneration.statements (.idle d))
        d.created.withPlainColumns := by
  rw [crash, initializeDatabase, stopAfter_bind_of_ge _ _ hn,
    restartable_beforeMailboxGeneration.ends, result_beforeMailboxGeneration]
  rfl

theorem prepared_columns (d : LegacyDatabase) : d.created.withPlainColumns.prepared = d.prepared := by
  have h := restartable_beforeMailboxGeneration.ended d
  rwa [result_beforeMailboxGeneration] at h

/-- Where the deliveries have their column, a crash of the rest is harmless. -/
theorem prepared_crash_of_column {d : LegacyDatabase} (hcolumn : d.deliveries.hasColumn = true)
    {n : Nat} (hn : n < generationsAndRows.statements (.idle d)) :
    (generationsAndRows.crash n d).prepared = d.prepared := by
  rw [generationsAndRows, addMailboxGeneration_bind] at hn ⊢
  rw [statements, Connection.visible_idle, hcolumn] at hn
  have hstop : ∀ n, stopAfter n (.read fun d => if d.deliveries.hasColumn = true then
      (do addTargetGeneration; advanceAndCommit) else .execute (.definition unfilled)
        (do statement (.modification fillMailboxGenerations); addTargetGeneration; advanceAndCommit))
      (.idle d) = stopAfter n (do addTargetGeneration; advanceAndCommit) (.idle d) := by
    intro n
    cases n <;> rw [stopAfter, Connection.visible_idle, hcolumn, if_pos rfl]
  rw [crash, hstop]
  exact prepared_crash_after_generations hn

/-- Between the two commits a crash leaves the deliveries unfilled, if they had no column. -/
theorem crash_in_window {d : LegacyDatabase}
    (hcolumn : d.created.withPlainColumns.deliveries.hasColumn = false) {n : Nat} (hge : beforeMailboxGeneration.statements (.idle d) < n)
    (hlt : n < initializeDatabase.statements (.idle d)) :
    initializeDatabase.crash n d = unfilled d.created.withPlainColumns := by
  rw [statements_initializeDatabase] at hlt
  obtain ⟨m, hm⟩ : ∃ m, n - beforeMailboxGeneration.statements (.idle d) = m + 1 :=
    ⟨n - beforeMailboxGeneration.statements (.idle d) - 1, by omega⟩
  have hm' : m + 1 < generationsAndRows.statements (.idle d.created.withPlainColumns) := by omega
  rw [crash_of_ge (Nat.le_of_lt hge), hm]
  exact crash_unfilled hcolumn hm'

/-- Outside that window the rerun starts from a database that prepares the same. -/
theorem migrated_crash {d : LegacyDatabase} {n : Nat} (h : GenerationsWhole d n) :
    migrated (initializeDatabase.crash n d) = migrated d := by
  by_cases hbefore : n ≤ beforeMailboxGeneration.statements (.idle d)
  · exact migrated_congr (crash_of_le hbefore)
  by_cases hend : initializeDatabase.statements (.idle d) ≤ n
  · have hcrash : initializeDatabase.crash n d = migrated d := by
      rw [crash, stopAfter_of_le _ hend, migrated]
    rw [hcrash, migrated_migrated]
  have hge := Nat.lt_of_not_le hbefore
  have hlt := Nat.lt_of_not_le hend
  refine migrated_congr ?_
  cases hcolumn : d.created.withPlainColumns.deliveries.hasColumn with
  | true =>
    rw [statements_initializeDatabase] at hlt
    have hn : n - beforeMailboxGeneration.statements (.idle d) <
        generationsAndRows.statements (.idle d.created.withPlainColumns) := by omega
    rw [crash_of_ge (Nat.le_of_lt hge), prepared_crash_of_column hcolumn hn, prepared_columns]
  | false =>
    have hrows : d.created.withPlainColumns.deliveries.rows = [] := by
      rcases h with h | h | h | h
      · exact absurd (hcolumn.symm.trans (Widened.hasColumn_create h)) Bool.false_ne_true
      · exact (Widened.rows_create d.deliveries).trans h
      · exact absurd h hbefore
      · exact absurd h hend
    rw [crash_in_window hcolumn hge hlt, prepared_unfilled_of_nil hrows, prepared_columns]

theorem prepared_deliveries_of_wide {d : LegacyDatabase} {rows : List (DeliveryEntry × Int)}
    (h : d.deliveries = .wide rows) : d.prepared.deliveries = .wide rows := by
  obtain ⟨_, _, _, _, _, _, _, _, _, _, _, _⟩ := d
  cases h
  rfl

/-- The generation an old delivery gets: that of its mailbox. -/
theorem prepared_deliveries_of_narrow {d : LegacyDatabase} {rows : List DeliveryEntry}
    (h : d.deliveries = .narrow rows) :
    d.prepared.deliveries = .wide (rows.map fun row =>
      (row, ((d.created.withPlainColumns.mailboxGeneration? row.mailboxId).getD 0 : Nat))) := by
  obtain ⟨_, _, _, _, _, _, _, _, _, _, _, _⟩ := d
  cases h
  rfl

theorem migrated_deliveries (d : LegacyDatabase) : (migrated d).deliveries = d.prepared.deliveries := by
  obtain ⟨rows, hmigrated, -⟩ := settles_initializeDatabase d
  rw [hmigrated]
  rfl

/-- Inside it the generations of all deliveries are lost. -/
theorem migrated_crash_ne {d : LegacyDatabase} {n : Nat} (h : ¬ GenerationsWhole d n) :
    migrated (initializeDatabase.crash n d) ≠ migrated d := by
  obtain ⟨hcolumn, hrows, hbefore, hend⟩ : d.deliveries.hasColumn ≠ true ∧ d.deliveries.rows ≠ [] ∧
      beforeMailboxGeneration.statements (.idle d) < n ∧
      n < initializeDatabase.statements (.idle d) := by
    simpa only [GenerationsWhole, not_or, not_le] using h
  obtain ⟨row, rows, hnarrow⟩ : ∃ row rows, d.deliveries = .narrow (row :: rows) := by
    cases hd : d.deliveries with
    | absent => exact absurd (by rw [hd]; rfl) hrows
    | narrow rows =>
      cases rows with
      | nil => exact absurd (by rw [hd]; rfl) hrows
      | cons row rows => exact ⟨row, rows, rfl⟩
    | wide rows => exact absurd (by rw [hd]; rfl) hcolumn
  have hcreated : d.created.withPlainColumns.deliveries = .narrow (row :: rows) := by
    change d.deliveries.create = _
    rw [hnarrow]
    rfl
  rw [crash_in_window (by rw [hcreated]; rfl) hbefore hend]
  intro heq
  have hdeliveries := congrArg LegacyDatabase.deliveries heq
  rw [migrated_deliveries, migrated_deliveries] at hdeliveries
  have hlost := prepared_deliveries_of_wide (d := unfilled d.created.withPlainColumns)
    (congrArg (Widened.addColumn (-1)) hcreated)
  have hfilled := prepared_deliveries_of_narrow hnarrow
  rw [hlost, hfilled, Widened.wide.injEq, List.map_cons, List.map_cons, List.cons.injEq,
    Prod.mk.injEq] at hdeliveries
  omega

end Migration

/-! ## The generation boundary -/

theorem Widened.create_addColumn_of_missing {ρ α : Type} {t : Widened ρ α} (a : α)
    (h : t.hasColumn = false) : t.create.addColumn a = .wide (t.rows.map fun row => (row, a)) := by
  cases t with
  | absent => rfl
  | narrow rows => rfl
  | wide rows => exact nomatch h

namespace LegacyDatabase

/-- The deliveries of a mailbox that carry a generation. -/
def carrying (d : LegacyDatabase) (mailboxId : Nat) (generation : Int) : List DeliveryEntry :=
  (d.deliveries.entries.filter fun row => row.1.mailboxId = mailboxId ∧ row.2 = generation).map
    Prod.fst

/-- The generations of `after` separate the deliveries `before` had from all later ones: every
    delivery has one, an incomplete job's target is that of the old deliveries of its mailbox, and
    whatever is inserted later gets a greater one. -/
structure GenerationBoundary (before after : LegacyDatabase) : Prop where
  filled : ∀ row ∈ after.deliveries.entries, row.2 ≠ -1
  existed : ∀ job ∈ after.bulkDeleteJobs.entries, Incomplete job.1 →
    after.carrying job.1.mailboxId job.2 =
      before.deliveries.rows.filter fun row => row.mailboxId = job.1.mailboxId
  later : ∀ job ∈ after.bulkDeleteJobs.entries, Incomplete job.1 → ∀ rows d,
    Transition.run insertDelivery after rows = some d →
      ∃ new, d.deliveries.entries = after.deliveries.entries ++ new ∧ new.map Prod.fst = rows ∧
        ∀ row ∈ new, row.1.mailboxId = job.1.mailboxId → (job.2 : Int) < row.2

/-- An insert appends the delivery with its mailbox's generation. -/
theorem insertDelivery_spec {d e : LegacyDatabase} {row : DeliveryEntry}
    (h : d.insertDelivery row = some e) (htrigger : d.objects.fillMailboxGenerationTrigger = true) :
    ∃ generation : Nat, d.mailboxGeneration? row.mailboxId = some generation ∧
      e.deliveries.entries = d.deliveries.entries ++ [(row, (generation : Int))] ∧
      e.mailboxes = d.mailboxes ∧ e.objects = d.objects := by
  rw [insertDelivery, htrigger] at h
  split at h
  · next rows generation hrows hgeneration =>
      cases h
      exact ⟨generation, hgeneration, by rw [hrows]; rfl, rfl, rfl⟩
  · exact nomatch h

theorem run_insertDelivery {rows : List DeliveryEntry} {d e : LegacyDatabase}
    (h : Transition.run insertDelivery d rows = some e)
    (htrigger : d.objects.fillMailboxGenerationTrigger = true) :
    ∃ new, e.deliveries.entries = d.deliveries.entries ++ new ∧ new.map Prod.fst = rows ∧
      ∀ row ∈ new, ∃ generation : Nat,
        d.mailboxGeneration? row.1.mailboxId = some generation ∧ row.2 = generation := by
  induction rows generalizing d with
  | nil =>
    cases h
    exact ⟨[], (List.append_nil _).symm, rfl, nofun⟩
  | cons row rows ih =>
    obtain ⟨d₁, hd₁, hrest⟩ := Option.bind_eq_some_iff.mp h
    obtain ⟨generation, hgeneration, hentries, hmailboxes, hobjects⟩ :=
      insertDelivery_spec hd₁ htrigger
    obtain ⟨new, hnew, hfst, hgenerations⟩ := ih hrest (hobjects ▸ htrigger)
    refine ⟨(row, (generation : Int)) :: new, ?_, ?_, ?_⟩
    · rw [hnew, hentries, List.append_assoc]
      rfl
    · rw [List.map_cons, hfst]
    · intro row' hmem
      rcases List.mem_cons.mp hmem with rfl | hmem
      · exact ⟨generation, hgeneration, rfl⟩
      · obtain ⟨generation', hlookup, heq⟩ := hgenerations row' hmem
        rw [mailboxGeneration?, hmailboxes] at hlookup
        exact ⟨generation', hlookup, heq⟩

/-- In a settled database no `UPDATE` would raise a mailbox. -/
theorem Settled.advanced {d : LegacyDatabase} (h : d.Settled) {m : Nat × Nat}
    (hm : m ∈ d.mailboxes.entries) {generation : Nat} (hnext : generation ∈ d.nextGenerations m.1) :
    generation ≤ m.2 := by
  have hfixed : d.finished.mailboxes = d.mailboxes := by rw [h.finished]
  change d.advanceMailboxes.mailboxes = d.mailboxes at hfixed
  obtain ⟨rows, hrows⟩ : ∃ rows, d.mailboxes = .wide rows := by
    cases hd : d.mailboxes with
    | absent => rw [hd] at hm; cases hm
    | narrow rows => rw [hd] at hm; cases hm
    | wide rows => exact ⟨rows, rfl⟩
  rw [advanceMailboxes, hrows, Widened.update, Widened.wide.injEq] at hfixed
  rw [hrows] at hm
  have hrow := List.map_inj_left.mp (hfixed.trans (List.map_id rows).symm) m hm
  have hvalue := congrArg Prod.snd hrow
  simp only [id_eq] at hvalue
  cases hmax : (d.nextGenerations m.1).max? with
  | none =>
    rw [List.max?_eq_none_iff.mp hmax] at hnext
    cases hnext
  | some greatest =>
    simp only [hmax] at hvalue
    have hle := (List.max?_eq_some_iff.mp hmax).2 generation hnext
    omega

/-- The mailbox of an incomplete job is past the job's target. -/
theorem Settled.target_lt {d : LegacyDatabase} (h : d.Settled) {job : BulkDeleteJobEntry × Nat}
    (hjob : job ∈ d.bulkDeleteJobs.entries) (hincomplete : Incomplete job.1) {generation : Nat}
    (hgeneration : d.mailboxGeneration? job.1.mailboxId = some generation) : job.2 < generation := by
  obtain ⟨m, hfind, rfl⟩ := Option.map_eq_some_iff.mp hgeneration
  have hid : m.1 = job.1.mailboxId := by simpa using List.find?_some hfind
  refine h.advanced (List.mem_of_find?_eq_some hfind) (List.mem_map.mpr ⟨job, ?_, rfl⟩)
  exact List.mem_filter.mpr ⟨hjob, decide_eq_true ⟨hid.symm, hincomplete⟩⟩

/-- Where the mailboxes had no generation, each starts with zero. -/
theorem mailboxGeneration_of_missing {d : LegacyDatabase} (h : d.mailboxes.hasColumn = false)
    (id : Nat) : (d.created.withPlainColumns.mailboxGeneration? id).getD 0 = 0 := by
  have hentries : d.created.withPlainColumns.mailboxes.entries = d.mailboxes.rows.map fun id => (id, 0) :=
    congrArg Widened.entries (Widened.create_addColumn_of_missing 0 h)
  rw [mailboxGeneration?, hentries]
  cases hfind : (d.mailboxes.rows.map fun id => (id, 0)).find? fun m => m.1 = id with
  | none => rfl
  | some m =>
    obtain ⟨_, -, rfl⟩ := List.mem_map.mp (List.mem_of_find?_eq_some hfind)
    rfl

/-- Where deliveries and mailboxes had no generation, every old delivery gets zero. -/
theorem deliveries_of_missing {d : LegacyDatabase} (hmailboxes : d.mailboxes.hasColumn = false)
    (hdeliveries : d.deliveries.hasColumn = false) :
    (Migration.migrated d).deliveries.entries = d.deliveries.rows.map fun row => (row, 0) := by
  rw [Migration.migrated_deliveries]
  cases h : d.deliveries with
  | absent =>
    obtain ⟨_, _, _, _, _, _, _, _, _, _, _, _⟩ := d
    cases h
    rfl
  | narrow rows =>
    rw [Migration.prepared_deliveries_of_narrow h]
    simp only [mailboxGeneration_of_missing hmailboxes]
    rfl
  | wide rows =>
    rw [h] at hdeliveries
    exact nomatch hdeliveries

/-- Where the jobs had no target, every job gets zero. -/
theorem bulkDeleteJobs_of_missing {d : LegacyDatabase} (hjobs : d.bulkDeleteJobs.hasColumn = false) :
    (Migration.migrated d).bulkDeleteJobs.entries = d.bulkDeleteJobs.rows.map fun job => (job, 0) := by
  obtain ⟨rows, hmigrated, -⟩ := Migration.settles_initializeDatabase d
  rw [hmigrated]
  exact congrArg Widened.entries (Widened.create_addColumn_of_missing 0 hjobs)

/-- A run to the end on a database without generations leaves their boundary. -/
theorem generationBoundary_migrated {d : LegacyDatabase} (hmailboxes : d.mailboxes.hasColumn = false)
    (hdeliveries : d.deliveries.hasColumn = false) (hjobs : d.bulkDeleteJobs.hasColumn = false) :
    d.GenerationBoundary (Migration.migrated d) where
  filled row hrow := by
    rw [deliveries_of_missing hmailboxes hdeliveries] at hrow
    obtain ⟨_, -, rfl⟩ := List.mem_map.mp hrow
    exact nofun
  existed job hjob _ := by
    rw [bulkDeleteJobs_of_missing hjobs] at hjob
    obtain ⟨_, -, rfl⟩ := List.mem_map.mp hjob
    rw [carrying, deliveries_of_missing hmailboxes hdeliveries, List.filter_map, List.map_map]
    simp [Function.comp_def]
  later job hjob hincomplete rows e hrun := by
    have hobjects : (Migration.migrated d).objects.fillMailboxGenerationTrigger = true := by
      obtain ⟨rows, hmigrated, -⟩ := Migration.settles_initializeDatabase d
      rw [hmigrated]
      rfl
    obtain ⟨new, hentries, hrows, hgenerations⟩ := run_insertDelivery hrun hobjects
    refine ⟨new, hentries, hrows, fun row hrow hmailbox => ?_⟩
    obtain ⟨generation, hlookup, heq⟩ := hgenerations row hrow
    rw [hmailbox] at hlookup
    have := d.settled_migrated.target_lt hjob hincomplete hlookup
    omega

end LegacyDatabase

/-! ## Crash safety -/

namespace Migration

open LegacyDatabase

/-- Running again after a crash leaves what one undisturbed run leaves, a further run changes
    nothing, and where no generation was there before, their boundary is. -/
structure CrashSafe (d : LegacyDatabase) (n : Nat) : Prop where
  sameRows : migrated (initializeDatabase.crash n d) = migrated d
  settled : migrated (migrated (initializeDatabase.crash n d)) = migrated (initializeDatabase.crash n d)
  boundary : d.mailboxes.hasColumn = false → d.deliveries.hasColumn = false →
    d.bulkDeleteJobs.hasColumn = false →
      d.GenerationBoundary (migrated (initializeDatabase.crash n d))

/-- A crash after `n` statements is repaired exactly where it leaves the delivery generations whole. -/
theorem crashSafe_iff (d : LegacyDatabase) (n : Nat) : CrashSafe d n ↔ GenerationsWhole d n := by
  constructor
  · intro h
    by_contra hwhole
    exact migrated_crash_ne hwhole h.sameRows
  · intro h
    have hsame := migrated_crash h
    refine ⟨hsame, migrated_migrated _, fun hmailboxes hdeliveries hjobs => ?_⟩
    rw [hsame]
    exact generationBoundary_migrated hmailboxes hdeliveries hjobs

/-- A mailbox with one delivery and a running job, from before the generations. -/
def legacyWithJob : LegacyDatabase where
  adminsHaveMustChangePassword := true
  messagesHaveVerificationCode := true
  deliveriesHaveExpiresAt := true
  messages := [⟨"legacy-message".toList, "2026-01-01T00:00:00Z".toList, .pending⟩]
  mailboxes := .narrow [1]
  deliveries := .narrow [⟨"legacy-delivery".toList, 1, "2026-01-01T00:00:00Z".toList, .active⟩]
  bulkDeleteJobs := .narrow [⟨"legacy-job".toList, 1, .running⟩]
  apiKeys := .wide []
  apiKeyDomainGrants := []
  smtpSessions := []
  metricBuckets := .full []
  objects := ⟨true, false, false, true, true, true⟩

/-- A crash right after the `ALTER` that adds the generation of the deliveries: the delivery keeps the
    sentinel, and the job, whose target is zero, never deletes it. -/
theorem delivery_left_unfilled :
    (migrated (initializeDatabase.crash 11 legacyWithJob)).deliveries.entries.map Prod.snd = [-1] ∧
      (migrated (initializeDatabase.crash 11 legacyWithJob)).carrying 1 0 = [] ∧
      (migrated legacyWithJob).deliveries.entries.map Prod.snd = [0] ∧
      ¬ CrashSafe legacyWithJob 11 :=
  ⟨by decide +kernel, by decide +kernel, by decide +kernel,
    fun h => absurd h.sameRows (by decide +kernel)⟩

end Migration
end RapidInbox
