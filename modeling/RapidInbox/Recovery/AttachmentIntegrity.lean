import Mathlib.Data.List.Nodup
import RapidInbox.Lib.Lines
import RapidInbox.Recovery.AttachmentSystem

/-!
# Attachment references

Who may name a file: the ids are drawn once, a path tells its message and its id, and what jobs,
manifests and parses have in memory are references that the rows of one message can be made of.
-/

namespace RapidInbox

open AttachmentState

/-! ## Ownership of files -/

/-- The id was drawn for this message, and the path is that of the two. -/
structure Named (issued : List (Text × Text)) (messageId : Text) (r : AttachmentReference) : Prop where
  issued : (messageId, r.id) ∈ issued
  path : ∃ safeName, r.storagePath = attachmentPath messageId r.id safeName

/-- References that can be the rows of one message. -/
structure Owned (issued : List (Text × Text)) (messageId : Text) (refs : List AttachmentReference) :
    Prop where
  named : ∀ r ∈ refs, Named issued messageId r
  ids : (refs.map (·.id)).Nodup
  parts : (refs.map (·.partIndex)).Nodup

/-- No id was drawn twice, and the parts of a path can be told apart. -/
structure Ledger (issued : List (Text × Text)) : Prop where
  ids : (issued.map Prod.snd).Nodup
  spelled : ∀ x ∈ issued, '/' ∉ x.1 ∧ '-' ∉ x.2

theorem Named.mono {issued issued' : List (Text × Text)} {messageId : Text} {r : AttachmentReference}
    (h : Named issued messageId r) (hsub : ∀ x ∈ issued, x ∈ issued') : Named issued' messageId r :=
  ⟨hsub _ h.issued, h.path⟩

theorem Owned.mono {issued issued' : List (Text × Text)} {messageId : Text}
    {refs : List AttachmentReference} (h : Owned issued messageId refs)
    (hsub : ∀ x ∈ issued, x ∈ issued') : Owned issued' messageId refs :=
  ⟨fun r hr => (h.named r hr).mono hsub, h.ids, h.parts⟩

namespace Ledger

variable {issued : List (Text × Text)} {m m' : Text} {r r' : AttachmentReference}

theorem owner (h : Ledger issued) (hr : Named issued m r) (hr' : Named issued m' r')
    (hid : r.id = r'.id) : m = m' := by
  have heq := List.inj_on_of_nodup_map h.ids hr.issued hr'.issued hid
  exact congrArg Prod.fst heq

/-- A path tells its message and its id. -/
theorem path (h : Ledger issued) (hr : Named issued m r) (hr' : Named issued m' r')
    (hpath : r.storagePath = r'.storagePath) : m = m' ∧ r.id = r'.id := by
  obtain ⟨safeName, hr₁⟩ := hr.path
  obtain ⟨safeName', hr₂⟩ := hr'.path
  have hspelled : '/' ∉ m ∧ '-' ∉ r.id := h.spelled _ hr.issued
  have hspelled' : '/' ∉ m' ∧ '-' ∉ r'.id := h.spelled _ hr'.issued
  rw [hr₁, hr₂] at hpath
  unfold attachmentPath at hpath
  simp only [List.append_assoc, List.cons_append] at hpath
  have htail : m ++ '/' :: (r.id ++ '-' :: safeName) = m' ++ '/' :: (r'.id ++ '-' :: safeName') :=
    List.append_cancel_left hpath
  obtain ⟨hmessage, hrest⟩ := Lines.eq_of_line_eq hspelled.1 hspelled'.1 htail
  exact ⟨hmessage, (Lines.eq_of_line_eq hspelled.2 hspelled'.2 hrest).1⟩

/-- More ids are drawn. -/
theorem draw {s : AttachmentState} (h : Ledger s.issued) {messageId : Text} {ids : List Text}
    (hdraws : s.Draws messageId ids) : Ledger (s.draw messageId ids).issued := by
  obtain ⟨hslash, hnodup, hnew⟩ := hdraws
  have hmap : ((ids.map fun id => (messageId, id)).map Prod.snd) = ids := by simp
  constructor
  · show ((ids.map (fun id => (messageId, id)) ++ s.issued).map Prod.snd).Nodup
    rw [List.map_append, hmap, List.nodup_append]
    refine ⟨hnodup, h.ids, ?_⟩
    intro id hid id' hid' heq
    exact (hnew id hid).2 (heq ▸ hid')
  · intro x hx
    rcases List.mem_append.mp hx with hx | hx
    · obtain ⟨id, hid, rfl⟩ := List.mem_map.mp hx
      exact ⟨hslash, (hnew id hid).1⟩
    · exact h.spelled x hx

end Ledger

/-! ## The invariant -/

/-- The columns say how many rows there are. -/
def MessageContent.Matches (content : MessageContent) (n : Nat) : Prop :=
  (content.parseStatus = .parsed → content.attachmentCount = n) ∧
    (content.parseStatus = .failed → n = 0)

/-- The attachments of a message. -/
def Db.attachmentRows (db : Db) (messageId : Text) : List AttachmentRow :=
  db.attachments.filter fun a => a.messageId = messageId

/-- A parse result counts its attachments. -/
def ParseResult.Counted (result : ParseResult) : Prop :=
  ∀ p, result = .parsed p → p.attachmentCount = p.attachments.length

/-- A manifest counts its attachments. -/
def RecoveryManifest.Counted (f : RecoveryManifest) : Prop :=
  ∀ c, f.parsed = .parsed c → c.attachmentCount = c.attachments.length

/-- What a parse result says about the files of its attachments. -/
def ParseResult.references (result : ParseResult) : List AttachmentReference :=
  (BatchWriter.attachmentsOf result).map ParsedAttachment.reference

def RecoveryManifest.references (f : RecoveryManifest) : List AttachmentReference :=
  f.attachments.map RecoveryAttachment.reference

namespace AttachmentState

/-- References that the rows of a message can be made of: while the message is not there, nobody
    unlinks their files. -/
structure Backed (s : AttachmentState) (messageId : Text) (refs : List AttachmentReference) : Prop where
  owned : Owned s.issued messageId refs
  files : ¬s.Present messageId → ∀ r ∈ refs, r.storagePath ∈ s.files

structure JobSound (s : AttachmentState) (j : IngestJob) : Prop where
  owned : Owned s.issued j.job.messageId j.result.references
  counted : j.result.Counted
  files : ¬s.Present j.job.messageId → ∀ r ∈ j.result.references, r.storagePath ∈ j.written →
    r.storagePath ∈ s.files
  written : j.manifestWritten = true → ∀ r ∈ j.result.references, r.storagePath ∈ j.written

def ManifestSound (s : AttachmentState) (m : MailJob × Option ParseResult) : Prop :=
  ∀ result, m.2 = some result → s.Backed m.1.messageId result.references ∧ result.Counted

def HeldSound (s : AttachmentState) (f : RecoveryManifest) : Prop :=
  s.Backed f.messageId f.references ∧ f.Counted

/-- The files a parse has written are there, its ids are not in the table; the paths it has still to
    unlink are named by no row. -/
def PhaseSound (s : AttachmentState) (messageId : Text) : ParsePhase → Prop
  | .extracting attachments _ written =>
    (∀ a ∈ attachments, Named s.issued messageId a.reference ∧
      ∀ row ∈ s.db.attachments, row.id ≠ a.attachmentId) ∧
    ∀ a ∈ attachments.take written, a.storagePath ∈ s.files
  | .unlinking paths =>
    ∀ path ∈ paths, (∃ r, Named s.issued messageId r ∧ r.storagePath = path) ∧
      ∀ row ∈ s.db.attachments, row.storagePath ≠ path

end AttachmentState

namespace AttachmentSystem

/-- The rows name files of their messages, and the columns count them. -/
structure StoreSound (s : AttachmentState) : Prop where
  consistent : s.db.Consistent
  rows : ∀ row ∈ s.db.attachments, Named s.issued row.messageId row.reference ∧
    row.storagePath ∈ s.files
  counts : ∀ m ∈ s.db.messages, m.content.Matches (s.db.attachmentRows m.id).length

structure Sound (s : AttachmentState) : Prop where
  store : StoreSound s
  ledger : Ledger s.issued
  jobs : ∀ j ∈ s.jobs, s.JobSound j
  manifests : ∀ m ∈ s.manifests, s.ManifestSound m
  held : ∀ f ∈ s.held, s.HeldSound f
  single : (s.parses.map (·.messageId)).Nodup
  parses : ∀ p ∈ s.parses, s.Present p.messageId ∧ s.PhaseSound p.messageId p.phase

/-! ## What concerns one message -/

/-- A step that unlinks files of one message only, if at all, and adds rows of that message only. -/
structure Frame (m : Text) (s s' : AttachmentState) : Prop where
  present : ∀ id, s.Present id → s'.Present id
  issued : ∀ x ∈ s.issued, x ∈ s'.issued
  files : ∀ id r, id ≠ m → Named s.issued id r → r.storagePath ∈ s.files → r.storagePath ∈ s'.files
  absent : ¬s'.Present m → ∀ path ∈ s.files, path ∈ s'.files
  rows : ∀ row ∈ s'.db.attachments, row ∈ s.db.attachments ∨
    row.messageId = m ∧ Named s'.issued m row.reference

variable {m : Text} {s s' : AttachmentState}

theorem Frame.backed (h : Frame m s s') {messageId : Text} {refs : List AttachmentReference}
    (hbacked : s.Backed messageId refs) : s'.Backed messageId refs := by
  refine ⟨hbacked.owned.mono h.issued, ?_⟩
  intro habsent r hr
  have hfile : r.storagePath ∈ s.files :=
    hbacked.files (fun hpresent => habsent (h.present _ hpresent)) r hr
  by_cases hm : messageId = m
  · exact h.absent (hm ▸ habsent) _ hfile
  · exact h.files messageId r hm (hbacked.owned.named r hr) hfile

theorem Frame.manifestSound (h : Frame m s s') {x : MailJob × Option ParseResult}
    (hx : s.ManifestSound x) : s'.ManifestSound x := by
  intro result hresult
  obtain ⟨hbacked, hcounted⟩ := hx result hresult
  exact ⟨h.backed hbacked, hcounted⟩

theorem Frame.heldSound (h : Frame m s s') {f : RecoveryManifest} (hf : s.HeldSound f) :
    s'.HeldSound f :=
  ⟨h.backed hf.1, hf.2⟩

theorem Frame.jobSound (h : Frame m s s') {j : IngestJob} (hj : s.JobSound j) : s'.JobSound j := by
  refine ⟨hj.owned.mono h.issued, hj.counted, ?_, hj.written⟩
  intro habsent r hr hwritten
  have hfile : r.storagePath ∈ s.files :=
    hj.files (fun hpresent => habsent (h.present _ hpresent)) r hr hwritten
  by_cases hm : j.job.messageId = m
  · exact h.absent (hm ▸ habsent) _ hfile
  · exact h.files _ r hm (hj.owned.named r hr) hfile

theorem Frame.phaseSound (h : Frame m s s') (hledger : Ledger s'.issued) {messageId : Text}
    {phase : ParsePhase} (hm : messageId ≠ m) (hphase : s.PhaseSound messageId phase) :
    s'.PhaseSound messageId phase := by
  cases phase with
  | extracting attachments raised written =>
    refine ⟨fun a ha => ?_, fun a ha => ?_⟩
    · obtain ⟨hnamed, hids⟩ := hphase.1 a ha
      refine ⟨hnamed.mono h.issued, fun row hrow hid => ?_⟩
      rcases h.rows row hrow with hold | ⟨-, hnew⟩
      · exact hids row hold hid
      · exact hm (hledger.owner (hnamed.mono h.issued) hnew hid.symm)
    · have hmem : a ∈ attachments := List.mem_of_mem_take ha
      exact h.files messageId a.reference hm (hphase.1 a hmem).1 (hphase.2 a ha)
  | unlinking paths =>
    intro path hpath
    obtain ⟨⟨r, hnamed, heq⟩, hrows⟩ := hphase path hpath
    refine ⟨⟨r, hnamed.mono h.issued, heq⟩, fun row hrow hsame => ?_⟩
    rcases h.rows row hrow with hold | ⟨-, hnew⟩
    · exact hrows row hold hsame
    · exact hm (hledger.path (hnamed.mono h.issued) hnew (heq.trans hsame.symm)).1

/-- What a step that concerns one message leaves as it was. -/
theorem Sound.frame (h : Sound s) (hframe : Frame m s s') (hledger : Ledger s'.issued) :
    (∀ j ∈ s.jobs, s'.JobSound j) ∧ (∀ x ∈ s.manifests, s'.ManifestSound x) ∧
      (∀ f ∈ s.held, s'.HeldSound f) ∧
      ∀ p ∈ s.parses, p.messageId ≠ m → s'.Present p.messageId ∧ s'.PhaseSound p.messageId p.phase := by
  refine ⟨fun j hj => hframe.jobSound (h.jobs j hj), fun x hx => hframe.manifestSound (h.manifests x hx),
    fun f hf => hframe.heldSound (h.held f hf), fun p hp hm => ?_⟩
  obtain ⟨hpresent, hphase⟩ := h.parses p hp
  exact ⟨hframe.present _ hpresent, hframe.phaseSound hledger hm hphase⟩

/-! ## Writes of the store -/

section
variable {db : Db} {row : MessageRow} {rows : List AttachmentRow}

/-- The rows of one message with their files. -/
def RowsOf (s : AttachmentState) (messageId : Text) (rows : List AttachmentRow) : Prop :=
  ∀ a ∈ rows, a.messageId = messageId ∧ Named s.issued messageId a.reference ∧ a.storagePath ∈ s.files

theorem Frame.adds (hadds : s.db.AddsMessage row rows db) (hrows : RowsOf s row.id rows) :
    Frame row.id s { s with db := db } where
  present id hpresent := by
    obtain ⟨m, hm, hid⟩ := hpresent
    exact ⟨m, hadds.messages ▸ List.mem_append_left _ hm, hid⟩
  issued _ hx := hx
  files _ _ _ _ hfile := hfile
  absent _ _ hfile := hfile
  rows a ha := by
    rw [hadds.attachments] at ha
    rcases List.mem_append.mp ha with ha | ha
    · exact .inl ha
    · exact .inr ⟨(hrows a ha).1, (hrows a ha).2.1⟩

theorem StoreSound.same (h : StoreSound s) (hsame : s.db.SameMessages db) (hcons : db.Consistent) :
    StoreSound { s with db := db } where
  consistent := hcons
  rows := by
    rw [hsame.attachments]
    exact h.rows
  counts := by
    show ∀ m ∈ db.messages, m.content.Matches (db.attachmentRows m.id).length
    unfold Db.attachmentRows
    rw [hsame.messages, hsame.attachments]
    exact h.counts

/-- The rows of one message are its rows. -/
theorem filter_rows {messageId : Text} (hrows : ∀ a ∈ rows, a.messageId = messageId) (other : Text) :
    (rows.filter fun a => a.messageId = other) = if other = messageId then rows else [] := by
  split
  · rename_i heq
    rw [List.filter_eq_self]
    intro a ha
    exact decide_eq_true ((hrows a ha).trans heq.symm)
  · rename_i hne
    rw [List.filter_eq_nil_iff]
    intro a ha hid
    exact hne ((of_decide_eq_true hid).symm.trans (hrows a ha))

theorem attachmentRows_absent {db : Db} (hcons : db.Consistent) {messageId : Text}
    (habsent : ∀ m ∈ db.messages, m.id ≠ messageId) : db.attachmentRows messageId = [] := by
  unfold Db.attachmentRows
  rw [List.filter_eq_nil_iff]
  intro a ha hid
  obtain ⟨m, hm, hmid⟩ := hcons.attachment_messages a ha
  exact habsent m hm (hmid.trans (of_decide_eq_true hid))

theorem StoreSound.adds (h : StoreSound s) (hadds : s.db.AddsMessage row rows db)
    (hcons : db.Consistent) (hrows : RowsOf s row.id rows) (hcount : row.content.Matches rows.length) :
    StoreSound { s with db := db } where
  consistent := hcons
  rows a ha := by
    rw [hadds.attachments] at ha
    rcases List.mem_append.mp ha with ha | ha
    · exact h.rows a ha
    · obtain ⟨hid, hnamed, hfile⟩ := hrows a ha
      exact ⟨hid ▸ hnamed, hfile⟩
  counts m hm := by
    have hfilter := filter_rows (fun a ha => (hrows a ha).1) m.id
    have hsplit : db.attachmentRows m.id =
        s.db.attachmentRows m.id ++ if m.id = row.id then rows else [] := by
      unfold Db.attachmentRows
      rw [hadds.attachments, List.filter_append, hfilter]
    show m.content.Matches (db.attachmentRows m.id).length
    rw [hadds.messages] at hm
    rw [hsplit]
    rcases List.mem_append.mp hm with hm | hm
    · rw [if_neg (hadds.absent m hm), List.append_nil]
      exact h.counts m hm
    · rw [List.mem_singleton.mp hm, if_pos rfl, attachmentRows_absent h.consistent hadds.absent]
      exact hcount

theorem StoreSound.resets (h : StoreSound s) {messageId : Text} {content : MessageContent}
    (hresets : s.db.ResetsMessage messageId content rows db) (hcons : db.Consistent)
    (hrows : RowsOf s messageId rows) (hcount : content.Matches rows.length) :
    StoreSound { s with db := db } where
  consistent := hcons
  rows a ha := by
    rw [hresets.attachments] at ha
    rcases List.mem_append.mp ha with ha | ha
    · exact h.rows a (List.mem_of_mem_filter ha)
    · obtain ⟨hid, hnamed, hfile⟩ := hrows a ha
      exact ⟨hid ▸ hnamed, hfile⟩
  counts m hm := by
    rw [hresets.messages] at hm
    obtain ⟨old, hold, rfl⟩ := Table.mem_updateWhere.mp hm
    have hsplit (id : Text) : db.attachmentRows id =
        (s.db.attachments.filter fun a => a.messageId = id ∧ a.messageId ≠ messageId) ++
          if id = messageId then rows else [] := by
      unfold Db.attachmentRows
      rw [hresets.attachments, List.filter_append, filter_rows (fun a ha => (hrows a ha).1) id,
        List.filter_filter]
      simp
    by_cases hid : old.id = messageId
    · have hnone : (s.db.attachments.filter fun a => a.messageId = messageId ∧ a.messageId ≠ messageId) =
          [] := by
        rw [List.filter_eq_nil_iff]
        intro a _ hcond
        exact (of_decide_eq_true hcond).2 (of_decide_eq_true hcond).1
      have hrowsOf := hsplit messageId
      rw [hnone, if_pos rfl, List.nil_append] at hrowsOf
      rw [if_pos (decide_eq_true hid)]
      show content.Matches (db.attachmentRows old.id).length
      rw [hid, hrowsOf]
      exact hcount
    · have hkept : db.attachmentRows old.id = s.db.attachmentRows old.id := by
        rw [hsplit, if_neg hid, List.append_nil]
        unfold Db.attachmentRows
        apply List.filter_congr
        intro a _
        by_cases ha : a.messageId = old.id
        · simp [ha, hid]
        · simp [ha]
      rw [if_neg (by simpa using hid)]
      show old.content.Matches (db.attachmentRows old.id).length
      rw [hkept]
      exact h.counts old hold

/-- A write that leaves the attachments alone. -/
theorem Sound.sameRows (h : Sound s) (hrows : db.attachments = s.db.attachments)
    (hpresent : ∀ id, s.Present id → ∃ m ∈ db.messages, m.id = id)
    (hstore : StoreSound { s with db := db }) : Sound { s with db := db } := by
  have hframe : Frame [] s { s with db := db } :=
    ⟨hpresent, fun _ hx => hx, fun _ _ _ _ hfile => hfile, fun _ _ hfile => hfile,
      fun _ hrow => .inl (hrows ▸ hrow)⟩
  obtain ⟨hjobs, hmanifests, hheld, -⟩ := h.frame hframe h.ledger
  refine ⟨hstore, h.ledger, hjobs, hmanifests, hheld, h.single, ?_⟩
  intro p hp
  obtain ⟨hhere, hphase⟩ := h.parses p hp
  refine ⟨hpresent _ hhere, ?_⟩
  have hsame : ({ s with db := db } : AttachmentState).db.attachments = s.db.attachments := hrows
  cases hcase : p.phase with
  | extracting attachments raised written =>
    rw [hcase] at hphase
    unfold PhaseSound at hphase ⊢
    rw [hsame]
    exact hphase
  | unlinking paths =>
    rw [hcase] at hphase
    unfold PhaseSound at hphase ⊢
    rw [hsame]
    exact hphase

theorem Sound.same (h : Sound s) (hsame : s.db.SameMessages db) (hcons : db.Consistent) :
    Sound { s with db := db } := by
  apply h.sameRows hsame.attachments
  · intro id hpresent
    rw [hsame.messages]
    exact hpresent
  · exact h.store.same hsame hcons

/-- A message and its rows are added; nobody parses a message that is not there. -/
theorem Sound.adds (h : Sound s) (hadds : s.db.AddsMessage row rows db) (hcons : db.Consistent)
    (hrows : RowsOf s row.id rows) (hcount : row.content.Matches rows.length) :
    Sound { s with db := db } := by
  obtain ⟨hjobs, hmanifests, hheld, hparses⟩ := h.frame (.adds hadds hrows) h.ledger
  refine ⟨h.store.adds hadds hcons hrows hcount, h.ledger, hjobs, hmanifests, hheld, h.single, ?_⟩
  intro p hp
  apply hparses p hp
  intro heq
  obtain ⟨⟨m, hm, hid⟩, -⟩ := h.parses p hp
  exact hadds.absent m hm (hid.trans heq)

/-! ## Commits and replays -/

theorem messageContent_matches {receivedAt : Timestamp} {result : ParseResult}
    (hcounted : result.Counted) :
    (BatchWriter.messageContent receivedAt result).Matches (BatchWriter.attachmentsOf result).length := by
  cases result with
  | parsed p => exact ⟨fun _ => hcounted p rfl, nofun⟩
  | failed message => exact ⟨nofun, fun _ => rfl⟩

/-- One job of a batch. -/
theorem Sound.storeJob {A : AddressOps} (h : Sound s) {job : MailJob} {result : ParseResult}
    (hbacked : s.Backed job.messageId result.references) (hcounted : result.Counted)
    (hok : BatchWriter.storeJob A s.db job result = .ok db) : Sound { s with db := db } := by
  have hedits := BatchWriter.storeJob_edits h.store.consistent rfl (fun _ r hr => hr) (fun _ => True)
    trivial (fun _ _ => trivial) hok
  have hcons := Edits.consistent h.store.consistent hedits.1
  rcases Db.storeJob_rows h.store.consistent hok with rfl | hadds
  · exact h.same (.refl _) hcons
  · apply h.adds hadds hcons
    · intro row hrow
      obtain ⟨a, ha, rfl⟩ := List.mem_map.mp hrow
      have hmem : a.reference ∈ result.references := List.mem_map_of_mem ha
      refine ⟨rfl, hbacked.owned.named _ hmem, ?_⟩
      apply hbacked.files _ _ hmem
      rintro ⟨m, hm, hid⟩
      exact hadds.absent m hm hid
    · rw [List.length_map]
      exact messageContent_matches hcounted

theorem Sound.storeRecords {A : AddressOps} (h : Sound s) {records : List (MailJob × ParseResult)}
    (hrecords : ∀ x ∈ records, s.Backed x.1.messageId x.2.references ∧ x.2.Counted)
    (hok : BatchWriter.writeSqliteRecords A s.db records = .ok db) : Sound { s with db := db } := by
  induction records generalizing s with
  | nil =>
    cases hok
    exact h
  | cons x rest ih =>
    obtain ⟨job, result⟩ := x
    obtain ⟨hfirst, hrest⟩ := List.forall_mem_cons.mp hrecords
    unfold BatchWriter.writeSqliteRecords at hok
    split at hok
    · cases hok
    · rename_i db₁ hone
      have hsound := h.storeJob hfirst.1 hfirst.2 hone
      refine ih (s := { s with db := db₁ }) hsound ?_ hok
      intro y hy
      obtain ⟨hbacked, hcounted⟩ := hrest y hy
      refine ⟨⟨hbacked.owned, fun habsent => hbacked.files fun hpresent => habsent ?_⟩, hcounted⟩
      rcases Db.storeJob_rows h.store.consistent hone with rfl | hadds
      · exact hpresent
      · obtain ⟨m, hm, hid⟩ := hpresent
        exact ⟨m, hadds.messages ▸ List.mem_append_left _ hm, hid⟩

theorem manifestContent_matches {f : RecoveryManifest} (hcounted : f.Counted) :
    f.content.Matches f.attachments.length := by
  unfold RecoveryManifest.content RecoveryManifest.attachments
  cases hparsed : f.parsed with
  | pending => exact ⟨nofun, nofun⟩
  | parsed c => exact ⟨fun _ => hcounted c hparsed, nofun⟩
  | failed e => exact ⟨nofun, fun _ => rfl⟩

/-- A replay that finds no row of its message, or all attachments held. -/
def RefusesAttachments (db : Db) (f : RecoveryManifest) : Prop :=
  (∀ m ∈ db.messages, m.id ≠ f.messageId) ∨
    ∀ a ∈ f.attachments, db.attachmentConflict (f.attachmentRow a) = true

theorem Sound.replay {A : AddressOps} (hA : A.Lawful) (h : Sound s) {f : RecoveryManifest}
    (hf : s.HeldSound f) (hrefuses : RefusesAttachments s.db f) {deliveryIds : Nat → Text}
    (hcons : db.Consistent) (hok : s.db.applyRecoveryManifest A f deliveryIds = .ok db) :
    Sound { s with db := db } := by
  obtain ⟨hbacked, hcounted⟩ := hf
  have hids : (f.attachments.map RecoveryAttachment.id).Nodup := by
    have hids := hbacked.owned.ids
    unfold RecoveryManifest.references at hids
    rw [List.map_map] at hids
    exact hids
  have hparts : (f.attachments.map RecoveryAttachment.partIndex).Nodup := by
    have hparts := hbacked.owned.parts
    unfold RecoveryManifest.references at hparts
    rw [List.map_map] at hparts
    exact hparts
  have hnamed (a : RecoveryAttachment) (ha : a ∈ f.attachments) :
      Named s.issued f.messageId a.reference :=
    hbacked.owned.named _ (List.mem_map_of_mem ha)
  have hfresh (habsent : ∀ m ∈ s.db.messages, m.id ≠ f.messageId) (a : RecoveryAttachment)
      (ha : a ∈ f.attachments) (row : AttachmentRow) (hrow : row ∈ s.db.attachments) :
      row.id ≠ a.id ∧ row.messageId ≠ f.messageId := by
    have hother : row.messageId ≠ f.messageId := by
      intro heq
      obtain ⟨m, hm, hid⟩ := h.store.consistent.attachment_messages row hrow
      exact habsent m hm (hid.trans heq)
    exact ⟨fun hid => hother (h.ledger.owner (h.store.rows row hrow).1 (hnamed a ha) hid), hother⟩
  rcases Db.applyRecoveryManifest_rows hA hok hfresh hids hparts hrefuses with hsame | ⟨session, hadds⟩
  · exact h.same hsame hcons
  · apply h.adds hadds hcons
    · intro row hrow
      obtain ⟨a, ha, rfl⟩ := List.mem_map.mp hrow
      refine ⟨rfl, hnamed a ha, ?_⟩
      apply hbacked.files _ a.reference (List.mem_map_of_mem ha)
      rintro ⟨m, hm, hid⟩
      exact hadds.absent m hm hid
    · rw [List.length_map]
      exact manifestContent_matches hcounted

/-! ## Parses -/

theorem mem_of_parseOf? {phase : ParsePhase}
    (h : (s.parseOf? m).map ParseWork.phase = some phase) : ⟨m, phase⟩ ∈ s.parses := by
  obtain ⟨p, hp, rfl⟩ := Option.map_eq_some_iff.mp h
  unfold AttachmentState.parseOf? at hp
  have hid := List.find?_some hp
  have hmem := List.mem_of_find?_eq_some hp
  rw [← of_decide_eq_true hid]
  exact hmem

theorem mem_setPhase {phase : ParsePhase} {p : ParseWork} (hp : p ∈ (s.setPhase m phase).parses) :
    p = ⟨m, phase⟩ ∨ p ∈ s.parses ∧ p.messageId ≠ m := by
  obtain ⟨q, hq, rfl⟩ := List.mem_map.mp hp
  by_cases hid : q.messageId = m
  · rw [if_pos hid]
    exact .inl rfl
  · rw [if_neg hid]
    exact .inr ⟨hq, hid⟩

theorem setPhase_messageIds (s : AttachmentState) (m : Text) (phase : ParsePhase) :
    (s.setPhase m phase).parses.map (·.messageId) = s.parses.map (·.messageId) := by
  unfold AttachmentState.setPhase
  rw [List.map_map]
  apply List.map_congr_left
  intro p _
  show (if p.messageId = m then (⟨m, phase⟩ : ParseWork) else p).messageId = p.messageId
  split
  · rename_i hid
    exact hid.symm
  · rfl

/-- The parse of a message goes on. -/
theorem Sound.work (h : Sound s) (db : Db) {files : List Text} {phase : ParsePhase}
    (hframe : Frame m s { s with db := db, files := files })
    (hstore : StoreSound { s with db := db, files := files }) (hpresent : s.Present m)
    (hphase : PhaseSound { s with db := db, files := files } m phase) :
    Sound (AttachmentState.setPhase { s with db := db, files := files } m phase) := by
  have hframe' : Frame m s (AttachmentState.setPhase { s with db := db, files := files } m phase) :=
    ⟨hframe.present, hframe.issued, hframe.files, hframe.absent, hframe.rows⟩
  obtain ⟨hjobs, hmanifests, hheld, hparses⟩ := h.frame hframe' h.ledger
  refine ⟨⟨hstore.consistent, hstore.rows, hstore.counts⟩, h.ledger, hjobs, hmanifests, hheld, ?_, ?_⟩
  · rw [setPhase_messageIds]
    exact h.single
  · intro p hp
    rcases mem_setPhase hp with rfl | ⟨hold, hother⟩
    · refine ⟨hframe.present _ hpresent, ?_⟩
      cases phase <;> exact hphase
    · exact hparses p hold hother

theorem Frame.resets {content : MessageContent} (hresets : s.db.ResetsMessage m content rows db)
    (hrows : RowsOf s m rows) : Frame m s { s with db := db } where
  present id hpresent := by
    obtain ⟨old, hold, hid⟩ := hpresent
    show ∃ m ∈ db.messages, m.id = id
    rw [hresets.messages]
    refine ⟨_, Table.mem_updateWhere.mpr ⟨old, hold, rfl⟩, ?_⟩
    split <;> exact hid
  issued _ hx := hx
  files _ _ _ _ hfile := hfile
  absent _ _ hfile := hfile
  rows a ha := by
    rw [hresets.attachments] at ha
    rcases List.mem_append.mp ha with ha | ha
    · exact .inl (List.mem_of_mem_filter ha)
    · exact .inr ⟨(hrows a ha).1, (hrows a ha).2.1⟩

/-- The rows of a message are replaced, and the files of the old ones are left to unlink. -/
theorem Sound.resets (h : Sound s) {content : MessageContent}
    (hresets : s.db.ResetsMessage m content rows db) (hcons : db.Consistent) (hrows : RowsOf s m rows)
    (hcount : content.Matches rows.length) (hpresent : s.Present m)
    (hnew : ∀ row ∈ rows, ∀ old ∈ s.db.attachments, old.id ≠ row.id) :
    Sound { s.setPhase m (.unlinking (s.attachmentPaths m)) with db := db } := by
  apply h.work db (.resets hresets hrows) (h.store.resets hresets hcons hrows hcount)
    hpresent
  intro path hpath
  obtain ⟨old, hold, rfl⟩ := List.mem_map.mp hpath
  obtain ⟨hmem, hmessage⟩ := List.mem_filter.mp hold
  have hid : old.messageId = m := of_decide_eq_true hmessage
  have hnamed : Named s.issued m old.reference := hid ▸ (h.store.rows old hmem).1
  refine ⟨⟨old.reference, hnamed, rfl⟩, ?_⟩
  intro row hrow hsame
  have hdb : row ∈ (s.db.attachments.filter fun a => a.messageId ≠ m) ++ rows := by
    rw [← hresets.attachments]
    exact hrow
  rcases List.mem_append.mp hdb with hrow | hrow
  · obtain ⟨hkept, hother⟩ := List.mem_filter.mp hrow
    have hpath := h.ledger.path (h.store.rows row hkept).1 hnamed hsame
    exact of_decide_eq_true hother hpath.1
  · have hpath := h.ledger.path (hrows row hrow).2.1 hnamed hsame
    exact hnew row hrow old hmem hpath.2.symm

end

end AttachmentSystem
end RapidInbox
