import RapidInbox.Db.Migration

/-!
# What the migration makes of a database

The effect of each part of `initialize_database` on the database it sees, the database the whole of it
leaves, and that this database is not changed by another run.
-/

namespace RapidInbox

open ImplicitTransaction

namespace Widened

variable {ρ α : Type}

/-- Adding a column that is there changes nothing, so the guard can be left out. -/
@[simp] theorem addColumn_unless (a : α) (t : Widened ρ α) :
    (if t.hasColumn then t else t.addColumn a) = t.addColumn a := by
  cases t <;> rfl

@[simp] theorem create_create (t : Widened ρ α) : t.create.create = t.create := by
  cases t <;> rfl

@[simp] theorem create_addColumn_create (a : α) (t : Widened ρ α) :
    (t.create.addColumn a).create = t.create.addColumn a := by
  cases t <;> rfl

@[simp] theorem addColumn_create_addColumn (a : α) (t : Widened ρ α) :
    (t.addColumn a).create.addColumn a = t.create.addColumn a := by
  cases t <;> rfl

@[simp] theorem addColumn_addColumn (a b : α) (t : Widened ρ α) :
    (t.addColumn a).addColumn b = t.addColumn a := by
  cases t <;> rfl

@[simp] theorem create_update (f : ρ × α → α) (t : Widened ρ α) :
    (t.update f).create = t.create.update f := by
  cases t <;> rfl

theorem create_addColumn_eq_wide (a : α) (t : Widened ρ α) :
    ∃ rows, t.create.addColumn a = .wide rows := by
  cases t with
  | absent => exact ⟨_, rfl⟩
  | narrow rows => exact ⟨_, rfl⟩
  | wide rows => exact ⟨_, rfl⟩

@[simp] theorem rows_create (t : Widened ρ α) : t.create.rows = t.rows := by
  cases t <;> rfl

@[simp] theorem rows_addColumn (a : α) (t : Widened ρ α) : (t.addColumn a).rows = t.rows := by
  cases t with
  | absent => rfl
  | narrow rows =>
    simp only [addColumn, Widened.rows, List.map_map]
    exact List.map_id rows
  | wide rows => rfl

@[simp] theorem rows_update (f : ρ × α → α) (t : Widened ρ α) : (t.update f).rows = t.rows := by
  cases t with
  | absent => rfl
  | narrow rows => rfl
  | wide rows => simp [update, Widened.rows]

end Widened

namespace MetricBuckets

@[simp] theorem addReceived_unless (t : MetricBuckets) :
    (if t.hasReceived then t else t.addReceived) = t.addReceived := by
  cases t <;> rfl

@[simp] theorem addRejected_unless (t : MetricBuckets) :
    (if t.hasRejected then t else t.addRejected) = t.addRejected := by
  cases t <;> rfl

@[simp] theorem create_create (t : MetricBuckets) : t.create.create = t.create := by
  cases t <;> rfl

end MetricBuckets

namespace LegacyDatabase

/-! ## The columns -/

/-- The database after the schema script. -/
def created (d : LegacyDatabase) : LegacyDatabase :=
  { d with
    deliveriesHaveExpiresAt := d.createDeliveries.deliveriesHaveExpiresAt
    mailboxes := d.mailboxes.create
    deliveries := d.deliveries.create
    bulkDeleteJobs := d.bulkDeleteJobs.create
    apiKeys := d.apiKeys.create
    metricBuckets := d.metricBuckets.create
    objects := { d.objects with adminSessionsActiveIndex := true, fillMailboxGenerationTrigger := true } }

/-- The database with the columns that come before the delivery generations. -/
def withPlainColumns (d : LegacyDatabase) : LegacyDatabase :=
  { d with
    adminsHaveMustChangePassword := true
    messagesHaveVerificationCode := true
    deliveriesHaveExpiresAt := true
    mailboxes := d.mailboxes.addColumn 0 }

/-- `message_deliveries` with its generations: the ones it has, or those of the mailboxes. -/
def deliveriesWithGenerations (d : LegacyDatabase) : Widened DeliveryEntry Int :=
  match d.deliveries with
  | .absent => .absent
  | .narrow rows => .wide (rows.map fun row => (row, ((d.mailboxGeneration? row.mailboxId).getD 0 : Nat)))
  | .wide rows => .wide rows

/-- The database with all generation columns. -/
def withGenerations (d : LegacyDatabase) : LegacyDatabase :=
  { d with
    deliveries := d.deliveriesWithGenerations
    bulkDeleteJobs := d.bulkDeleteJobs.addColumn 0 }

/-- What is in place when the `UPDATE` of the mailboxes begins. -/
def prepared (d : LegacyDatabase) : LegacyDatabase := d.created.withPlainColumns.withGenerations

end LegacyDatabase

/-- The new column is filled where it has its default, which is everywhere. -/
theorem LegacyDatabase.fillMailboxGenerations_addColumn (d : LegacyDatabase)
    {rows : List DeliveryEntry} (h : d.deliveries = .narrow rows) :
    fillMailboxGenerations { d with deliveries := d.deliveries.addColumn (-1) } =
      { d with deliveries := d.deliveriesWithGenerations } := by
  have hdeliveries : (fillMailboxGenerations { d with deliveries := d.deliveries.addColumn (-1) }).deliveries
      = d.deliveriesWithGenerations := by
    simp only [fillMailboxGenerations, deliveriesWithGenerations, h, Widened.addColumn, Widened.update,
      List.map_map]
    rfl
  rw [← hdeliveries]
  rfl

namespace Migration

open Script LegacyDatabase

theorem result_createTables (d : LegacyDatabase) : createTables.result d = ((), d.created) := by
  simp only [createTables, result_bind, result_statement, Statement.effect, createDeliveries, created]
  cases d.deliveries <;> rfl

theorem result_schemaScript (d : LegacyDatabase) : schemaScript.result d = ((), d.created) := by
  simp only [schemaScript, result_bind, result_statement, Statement.effect, result_createTables]

theorem result_addPlainColumns (d : LegacyDatabase) :
    addPlainColumns.result d = ((), d.withPlainColumns) := by
  obtain ⟨admins, messages, expires, _, mailboxes, _⟩ := d
  simp only [addPlainColumns, result_bind, result_defineUnless, withPlainColumns]
  cases admins <;> cases messages <;> cases expires <;> cases mailboxes <;> rfl

theorem result_addMailboxGeneration (d : LegacyDatabase) :
    addMailboxGeneration.result d = ((), { d with deliveries := d.deliveriesWithGenerations }) := by
  obtain ⟨_, _, _, _, mailboxes, deliveries, _⟩ := d
  cases deliveries with
  | absent => rfl
  | narrow rows => exact congrArg (Prod.mk ()) (fillMailboxGenerations_addColumn _ rfl)
  | wide rows => rfl

theorem result_addTargetGeneration (d : LegacyDatabase) :
    addTargetGeneration.result d =
      ((), { d with bulkDeleteJobs := d.bulkDeleteJobs.addColumn 0 }) := by
  obtain ⟨_, _, _, _, _, _, jobs, _⟩ := d
  cases jobs <;> rfl

end Migration

/-! ## The metrics -/

namespace MetricBuckets

variable {merge : BucketEntry Nat Nat → BucketEntry Nat Nat → BucketEntry Nat Nat}

theorem upsertRow_ne_nil (rows : List (BucketEntry Nat Nat)) (b : BucketEntry Nat Nat) :
    upsertRow merge rows b ≠ [] := by
  intro h
  by_cases hany : rows.any (fun a => a.bucketTs = b.bucketTs) = true
  · rw [upsertRow, if_pos hany, List.map_eq_nil_iff] at h
    rw [h] at hany
    exact nomatch hany
  · rw [upsertRow, if_neg hany] at h
    exact List.append_ne_nil_of_right_ne_nil _ (List.cons_ne_nil _ _) h

/-- An upsert leaves an empty table only if there was nothing in it and nothing to insert. -/
theorem foldl_upsertRow_eq_nil (new rows : List (BucketEntry Nat Nat)) :
    new.foldl (upsertRow merge) rows = [] ↔ rows = [] ∧ new = [] := by
  induction new generalizing rows with
  | nil => simp
  | cons b new ih =>
    rw [List.foldl_cons, ih]
    constructor
    · rintro ⟨h, -⟩
      exact absurd h (upsertRow_ne_nil rows b)
    · rintro ⟨-, h⟩
      exact nomatch h

@[simp] theorem upsert_full_eq_nil {new rows : List (BucketEntry Nat Nat)} :
    (MetricBuckets.full rows).upsert merge new = .full [] ↔ rows = [] ∧ new = [] := by
  rw [upsert, MetricBuckets.full.injEq, foldl_upsertRow_eq_nil]

@[simp] theorem upsert_nil (t : MetricBuckets) : t.upsert merge [] = t := by
  cases t <;> rfl

end MetricBuckets

namespace LegacyDatabase

/-- No row of the database would be counted by the backfill. -/
def NothingToCount (d : LegacyDatabase) : Prop :=
  d.deliveryCounts = [] ∧ d.parseFailureCounts = [] ∧ d.receivedCounts = [] ∧ d.rejectedSums = []

/-- The metrics have their columns, and a backfill of them would find nothing to do. -/
def MetricsSettled (d : LegacyDatabase) : Prop :=
  ∃ rows, d.metricBuckets = .full rows ∧ (rows = [] → d.NothingToCount)

/-- The database with the metrics replaced. -/
def withMetrics (d : LegacyDatabase) (rows : List (BucketEntry Nat Nat)) : LegacyDatabase :=
  { d with metricBuckets := .full rows }

/-- An insert into a full table leaves a full one, empty only if it was and nothing is inserted. -/
theorem upsertMetrics_withMetrics (d : LegacyDatabase) (rows new : List (BucketEntry Nat Nat))
    (merge : BucketEntry Nat Nat → BucketEntry Nat Nat → BucketEntry Nat Nat) :
    ∃ rows', (d.withMetrics rows).upsertMetrics merge new = d.withMetrics rows' ∧
      (rows' = [] ↔ rows = [] ∧ new = []) :=
  ⟨_, rfl, MetricBuckets.foldl_upsertRow_eq_nil new rows⟩

theorem upsertMetrics_nil (d : LegacyDatabase)
    (merge : BucketEntry Nat Nat → BucketEntry Nat Nat → BucketEntry Nat Nat) :
    d.upsertMetrics merge [] = d := by
  rw [upsertMetrics, MetricBuckets.upsert_nil]

end LegacyDatabase

namespace Migration

open Script LegacyDatabase

/-- The effect of the backfill, statement by statement. -/
theorem result_backfillMailMetricBuckets (received rejected : Bool) (d : LegacyDatabase) :
    (backfillMailMetricBuckets received rejected).result d =
      ((), let d₁ := if d.metricBuckets.isEmpty then d.insertDeliveryCounts.insertParseFailures else d
        let d₂ := if received || d.metricBuckets.isEmpty then d₁.insertReceived else d₁
        if rejected || d.metricBuckets.isEmpty then d₂.insertRejected else d₂) := by
  cases received <;> cases rejected <;> cases h : d.metricBuckets.isEmpty <;>
    simp [backfillMailMetricBuckets, h, Statement.effect]

/-- A backfill of a full table leaves it settled. -/
theorem settles_backfillMailMetricBuckets (received rejected : Bool) (d : LegacyDatabase)
    (rows : List (BucketEntry Nat Nat)) :
    ∃ rows', (backfillMailMetricBuckets received rejected).result (d.withMetrics rows) =
      ((), d.withMetrics rows') ∧ (rows' = [] → d.NothingToCount) := by
  rw [result_backfillMailMetricBuckets]
  cases rows with
  | nil =>
    -- the table was empty: all four inserts run
    obtain ⟨rows₁, h₁, hnil₁⟩ : ∃ rows₁, (d.withMetrics []).insertDeliveryCounts =
        d.withMetrics rows₁ ∧ (rows₁ = [] ↔ _ ∧ d.deliveryCounts = []) :=
      d.upsertMetrics_withMetrics _ _ _
    obtain ⟨rows₂, h₂, hnil₂⟩ : ∃ rows₂, (d.withMetrics rows₁).insertParseFailures =
        d.withMetrics rows₂ ∧ (rows₂ = [] ↔ _ ∧ d.parseFailureCounts = []) :=
      d.upsertMetrics_withMetrics _ _ _
    obtain ⟨rows₃, h₃, hnil₃⟩ : ∃ rows₃, (d.withMetrics rows₂).insertReceived =
        d.withMetrics rows₃ ∧ (rows₃ = [] ↔ _ ∧ d.receivedCounts = []) :=
      d.upsertMetrics_withMetrics _ _ _
    obtain ⟨rows₄, h₄, hnil₄⟩ : ∃ rows₄, (d.withMetrics rows₃).insertRejected =
        d.withMetrics rows₄ ∧ (rows₄ = [] ↔ _ ∧ d.rejectedSums = []) :=
      d.upsertMetrics_withMetrics _ _ _
    have hempty : (d.withMetrics []).metricBuckets.isEmpty = true := rfl
    refine ⟨rows₄, by simp [hempty, h₁, h₂, h₃, h₄], fun h => ?_⟩
    have hrejected := hnil₄.mp h
    have hreceived := hnil₃.mp hrejected.1
    have hfailures := hnil₂.mp hreceived.1
    exact ⟨(hnil₁.mp hfailures.1).2, hfailures.2, hreceived.2, hrejected.2⟩
  | cons b rows =>
    have hempty : (d.withMetrics (b :: rows)).metricBuckets.isEmpty = false := rfl
    obtain ⟨rows₁, h₁, hnil₁⟩ : ∃ rows₁, (d.withMetrics (b :: rows)).insertReceived =
        d.withMetrics rows₁ ∧ (rows₁ = [] ↔ _ ∧ d.receivedCounts = []) :=
      d.upsertMetrics_withMetrics _ _ _
    have hne₁ : rows₁ ≠ [] := fun h => nomatch (hnil₁.mp h).1
    have hrejected : ∀ rows, rows ≠ [] → ∃ rows', (d.withMetrics rows).insertRejected =
        d.withMetrics rows' ∧ rows' ≠ [] := by
      intro rows hne
      obtain ⟨rows', h, hnil⟩ : ∃ rows', (d.withMetrics rows).insertRejected =
          d.withMetrics rows' ∧ (rows' = [] ↔ _ ∧ d.rejectedSums = []) :=
        d.upsertMetrics_withMetrics _ _ _
      exact ⟨rows', h, fun h' => hne (hnil.mp h').1⟩
    obtain ⟨rows₂, h₂, hne₂⟩ := hrejected (b :: rows) (List.cons_ne_nil _ _)
    obtain ⟨rows₃, h₃, hne₃⟩ := hrejected rows₁ hne₁
    cases received <;> cases rejected
    · exact ⟨b :: rows, by simp [hempty], nofun⟩
    · exact ⟨rows₂, by simp [hempty, h₂], fun h => absurd h hne₂⟩
    · exact ⟨rows₁, by simp [hempty, h₁], fun h => absurd h hne₁⟩
    · exact ⟨rows₃, by simp [hempty, h₁, h₃], fun h => absurd h hne₃⟩

/-- A settled table is left alone. -/
theorem result_backfillMailMetricBuckets_settled {d : LegacyDatabase} (h : d.MetricsSettled) :
    (backfillMailMetricBuckets false false).result d = ((), d) := by
  obtain ⟨rows, hfull, hnothing⟩ := h
  rw [result_backfillMailMetricBuckets, hfull]
  cases rows with
  | nil =>
    obtain ⟨h₁, h₂, h₃, h₄⟩ := hnothing rfl
    have k₁ : d.insertDeliveryCounts = d := by rw [insertDeliveryCounts, h₁, upsertMetrics_nil]
    have k₂ : d.insertParseFailures = d := by rw [insertParseFailures, h₂, upsertMetrics_nil]
    have k₃ : d.insertReceived = d := by rw [insertReceived, h₃, upsertMetrics_nil]
    have k₄ : d.insertRejected = d := by rw [insertRejected, h₄, upsertMetrics_nil]
    simp [MetricBuckets.isEmpty, k₁, k₂, k₃, k₄]
  | cons b rows => simp [MetricBuckets.isEmpty]

/-! ## The whole migration -/

end Migration

namespace LegacyDatabase

/-- The modes of the keys: the ones they have, or `selected` for a key with a grant. -/
def apiKeysWithModes (d : LegacyDatabase) : Widened Text DomainGrantMode :=
  match d.apiKeys with
  | .absent => .absent
  | .narrow keys =>
    .wide (keys.map fun key => (key, if key ∈ d.apiKeyDomainGrants then .selected else .none))
  | .wide rows => .wide rows

end LegacyDatabase

/-- What the migration leaves of the indexes and the trigger. -/
def SchemaObjects.upToDate : SchemaObjects := ⟨false, true, true, true, true, true⟩

namespace LegacyDatabase

/-- A database with all columns after the last transaction, its metrics aside. -/
def finished (d : LegacyDatabase) : LegacyDatabase :=
  { d with
    mailboxes := d.advanceMailboxes.mailboxes
    apiKeys := d.apiKeysWithModes
    objects := .upToDate }

/-- The new column is updated where it has its default, which is everywhere. -/
theorem selectGrantedKeys_addColumn (d : LegacyDatabase) {keys : List Text}
    (h : d.apiKeys = .narrow keys) :
    selectGrantedKeys { d with apiKeys := d.apiKeys.addColumn .none } =
      { d with apiKeys := d.apiKeysWithModes } := by
  have hkeys : (selectGrantedKeys { d with apiKeys := d.apiKeys.addColumn .none }).apiKeys =
      d.apiKeysWithModes := by
    simp only [selectGrantedKeys, apiKeysWithModes, h, Widened.addColumn, Widened.update, List.map_map]
    rfl
  rw [← hkeys]
  rfl

end LegacyDatabase

namespace Migration

open Script LegacyDatabase

theorem result_replaceDeliveryIndexes (d : LegacyDatabase) :
    replaceDeliveryIndexes.result d = ((), { d with objects :=
      ⟨false, true, true, true, true, d.objects.adminSessionsActiveIndex⟩ }) := rfl

theorem result_addDomainGrantMode (d : LegacyDatabase) :
    addDomainGrantMode.result d = ((), { d with apiKeys := d.apiKeysWithModes }) := by
  obtain ⟨_, _, _, _, _, _, _, keys, _⟩ := d
  cases keys with
  | absent => rfl
  | narrow rows => exact congrArg (Prod.mk ()) (selectGrantedKeys_addColumn _ rfl)
  | wide rows => rfl

/-- The index of the sessions and the metrics: afterwards the metrics are settled. -/
theorem settles_addMetricBuckets (d : LegacyDatabase) :
    ∃ rows, addMetricBuckets.result d = ((), { d with
        objects := { d.objects with adminSessionsActiveIndex := true }
        metricBuckets := .full rows }) ∧ (rows = [] → d.NothingToCount) := by
  obtain ⟨_, _, _, _, _, _, _, _, _, _, buckets, objects⟩ := d
  cases buckets with
  | absent => exact settles_backfillMailMetricBuckets false false { objects := _, .. } []
  | plain rows => exact settles_backfillMailMetricBuckets true true { objects := _, .. } _
  | withReceived rows => exact settles_backfillMailMetricBuckets false true { objects := _, .. } _
  | withRejected rows => exact settles_backfillMailMetricBuckets true false { objects := _, .. } _
  | full rows => exact settles_backfillMailMetricBuckets false false { objects := _, .. } rows

theorem settles_advanceAndCommit (d : LegacyDatabase) :
    ∃ rows, advanceAndCommit.result d = ((), d.finished.withMetrics rows) ∧
      (rows = [] → d.NothingToCount) := by
  obtain ⟨rows, hresult, hnothing⟩ := settles_addMetricBuckets
    { d with
      mailboxes := d.advanceMailboxes.mailboxes
      apiKeys := d.apiKeysWithModes
      objects := ⟨false, true, true, true, true, d.objects.adminSessionsActiveIndex⟩ }
  refine ⟨rows, ?_, hnothing⟩
  simp only [advanceAndCommit, migrateRows, result_bind, result_statement, Statement.effect,
    result_replaceDeliveryIndexes, result_addDomainGrantMode]
  exact hresult

/-- The connection is idle again after the final commit. -/
theorem run_advanceAndCommit (c : Connection LegacyDatabase) :
    (advanceAndCommit.run c).2 = .idle (advanceAndCommit.result c.visible).2 := by
  have h := (run_eq_result advanceAndCommit c).2
  simp only [advanceAndCommit, run_bind] at h ⊢
  rw [← h]
  rfl

theorem result_beforeMailboxGeneration (d : LegacyDatabase) :
    beforeMailboxGeneration.result d = ((), d.created.withPlainColumns) := by
  rw [beforeMailboxGeneration, result_bind, result_schemaScript, result_addPlainColumns]

/-- A run to the end prepares the database and finishes it. -/
theorem migrated_eq (d : LegacyDatabase) : migrated d = (advanceAndCommit.result d.prepared).2 := by
  have h := (run_eq_result initializeDatabase (.idle d)).2
  rw [migrated]
  simp only [initializeDatabase, run_bind, run_advanceAndCommit, Connection.committed_idle,
    Connection.visible_idle, result_bind, result_beforeMailboxGeneration, result_addMailboxGeneration,
    result_addTargetGeneration] at h ⊢
  rw [h]
  rfl

theorem settles_initializeDatabase (d : LegacyDatabase) :
    ∃ rows, migrated d = d.prepared.finished.withMetrics rows ∧
      (rows = [] → d.prepared.NothingToCount) := by
  obtain ⟨rows, hresult, hnothing⟩ := settles_advanceAndCommit d.prepared
  exact ⟨rows, (migrated_eq d).trans (congrArg Prod.snd hresult), hnothing⟩

end Migration

/-! ## Another run -/

namespace LegacyDatabase

/-- A database with every column, its jobs' mailboxes advanced and its metrics filled. -/
structure Settled (d : LegacyDatabase) : Prop where
  prepared : d.prepared = d
  finished : d.finished = d
  metrics : d.MetricsSettled

theorem deliveriesWithGenerations_create (d : LegacyDatabase) (h : d.deliveries = d.deliveries.create) :
    ∃ rows, d.deliveriesWithGenerations = .wide rows := by
  obtain ⟨_, _, _, _, _, deliveries, _⟩ := d
  cases deliveries with
  | absent => exact nomatch h
  | narrow rows => exact ⟨_, rfl⟩
  | wide rows => exact ⟨_, rfl⟩

theorem prepared_deliveries (d : LegacyDatabase) : ∃ rows, d.prepared.deliveries = .wide rows :=
  d.created.withPlainColumns.deliveriesWithGenerations_create
    (Widened.create_create d.deliveries).symm

theorem apiKeysWithModes_create (d : LegacyDatabase) (h : d.apiKeys = d.apiKeys.create) :
    ∃ rows, d.apiKeysWithModes = .wide rows := by
  obtain ⟨_, _, _, _, _, _, _, keys, _⟩ := d
  cases keys with
  | absent => exact nomatch h
  | narrow rows => exact ⟨_, rfl⟩
  | wide rows => exact ⟨_, rfl⟩

/-- A database that has every table and column is prepared. -/
theorem prepared_eq_self {d : LegacyDatabase} {mailboxes deliveries jobs keys buckets}
    (hadmins : d.adminsHaveMustChangePassword = true)
    (hmessages : d.messagesHaveVerificationCode = true) (hexpires : d.deliveriesHaveExpiresAt = true)
    (hmailboxes : d.mailboxes = .wide mailboxes) (hdeliveries : d.deliveries = .wide deliveries)
    (hjobs : d.bulkDeleteJobs = .wide jobs) (hkeys : d.apiKeys = .wide keys)
    (hbuckets : d.metricBuckets = .full buckets) (hobjects : d.objects = .upToDate) :
    d.prepared = d := by
  obtain ⟨_, _, _, _, _, _, _, _, _, _, _, _⟩ := d
  cases hadmins
  cases hmessages
  cases hexpires
  cases hmailboxes
  cases hdeliveries
  cases hjobs
  cases hkeys
  cases hbuckets
  cases hobjects
  rfl

theorem nextGenerations_finished (d : LegacyDatabase) (rows : List (BucketEntry Nat Nat)) (id : Nat) :
    (d.finished.withMetrics rows).nextGenerations id = d.nextGenerations id := rfl

/-- The second `UPDATE` of the mailboxes finds nothing to raise. -/
theorem advanceMailboxes_finished (d : LegacyDatabase) (rows : List (BucketEntry Nat Nat)) :
    (d.finished.withMetrics rows).advanceMailboxes.mailboxes = d.advanceMailboxes.mailboxes := by
  have hfinished : (d.finished.withMetrics rows).mailboxes = d.advanceMailboxes.mailboxes := rfl
  simp only [advanceMailboxes, nextGenerations_finished, hfinished]
  obtain ⟨_, _, _, _, mailboxes, _⟩ := d
  cases mailboxes with
  | absent => rfl
  | narrow rows => rfl
  | wide rows =>
    simp only [Widened.update, List.map_map]
    congr 1
    apply List.map_congr_left
    intro m _
    simp only [Function.comp_apply]
    split
    · rfl
    · rw [max_assoc, max_self]

/-- A run to the end leaves a settled database. -/
theorem settled_migrated (d : LegacyDatabase) : (Migration.migrated d).Settled := by
  obtain ⟨rows, hmigrated, hnothing⟩ := Migration.settles_initializeDatabase d
  obtain ⟨mailboxes, hmailboxes⟩ := Widened.create_addColumn_eq_wide 0 d.mailboxes
  obtain ⟨deliveries, hdeliveries⟩ := d.prepared_deliveries
  obtain ⟨jobs, hjobs⟩ := Widened.create_addColumn_eq_wide 0 d.bulkDeleteJobs
  obtain ⟨keys, hkeys⟩ := d.prepared.apiKeysWithModes_create (Widened.create_create d.apiKeys).symm
  have hadvanced : ∃ advanced, d.prepared.advanceMailboxes.mailboxes = .wide advanced := by
    have hprepared : d.prepared.mailboxes = .wide mailboxes := hmailboxes
    rw [advanceMailboxes, hprepared]
    exact ⟨_, rfl⟩
  obtain ⟨advanced, hadvanced⟩ := hadvanced
  rw [hmigrated]
  refine ⟨?_, ?_, rows, rfl, hnothing⟩
  · exact prepared_eq_self rfl rfl rfl hadvanced hdeliveries hjobs hkeys rfl rfl
  · have hkeys' : (d.prepared.finished.withMetrics rows).apiKeys = .wide keys := hkeys
    have hmodes : (d.prepared.finished.withMetrics rows).apiKeysWithModes =
        (d.prepared.finished.withMetrics rows).apiKeys := by
      rw [apiKeysWithModes, hkeys']
    refine LegacyDatabase.ext rfl rfl rfl rfl ?_ rfl rfl hmodes rfl rfl rfl rfl
    exact d.prepared.advanceMailboxes_finished rows

end LegacyDatabase

namespace Migration

open Script LegacyDatabase

/-- A settled database is not changed by a run. -/
theorem migrated_of_settled {d : LegacyDatabase} (h : d.Settled) : migrated d = d := by
  have hmetrics := result_backfillMailMetricBuckets_settled h.metrics
  obtain ⟨buckets, hbuckets, hnothing⟩ := h.metrics
  have hobjects : d.objects = .upToDate := congrArg LegacyDatabase.objects h.finished.symm
  have hadd : addMetricBuckets.result d = ((), d) := by
    obtain ⟨_, _, _, _, _, _, _, _, _, _, _, _⟩ := d
    cases hbuckets
    cases hobjects
    exact hmetrics
  have hfinished : { d with
      mailboxes := d.advanceMailboxes.mailboxes
      apiKeys := d.apiKeysWithModes
      objects := ⟨false, true, true, true, true, d.objects.adminSessionsActiveIndex⟩ } = d := by
    rw [hobjects]
    exact h.finished
  rw [migrated_eq, h.prepared]
  simp only [advanceAndCommit, migrateRows, result_bind, result_statement, Statement.effect,
    result_replaceDeliveryIndexes, result_addDomainGrantMode]
  calc (addMetricBuckets.result _).2 = (addMetricBuckets.result d).2 :=
        congrArg (fun e => (addMetricBuckets.result e).2) hfinished
    _ = d := congrArg Prod.snd hadd

/-- One further run changes nothing. -/
theorem migrated_migrated (d : LegacyDatabase) : migrated (migrated d) = migrated d :=
  migrated_of_settled d.settled_migrated

end Migration
end RapidInbox
