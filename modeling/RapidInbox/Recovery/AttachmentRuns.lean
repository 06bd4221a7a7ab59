import RapidInbox.Lib.Run
import RapidInbox.Mime.RoundTrip
import RapidInbox.Recovery.AttachmentIntegrity
import RapidInbox.Store.System

/-!
# Runs of commits, replays and parses

Every row names a file, and every parsed message has as many rows as its columns say, in every run
whose replays find either no row of their message or all of its attachments.
-/

namespace RapidInbox

open AttachmentState

namespace AttachmentSystem

variable {m : Text} {s s' : AttachmentState}

/-! ## Steps that write no row -/

/-- More ids and more files; what is new in memory and on disk is sound. -/
theorem Sound.grows (h : Sound s) (hdb : s'.db = s.db) (hissued : ∀ x ∈ s.issued, x ∈ s'.issued)
    (hfiles : ∀ path ∈ s.files, path ∈ s'.files) (hledger : Ledger s'.issued)
    (hjobs : ∀ j ∈ s'.jobs, j ∈ s.jobs ∨ s'.JobSound j)
    (hmanifests : ∀ x ∈ s'.manifests, x ∈ s.manifests ∨ s'.ManifestSound x)
    (hheld : ∀ f ∈ s'.held, f ∈ s.held ∨ s'.HeldSound f)
    (hsingle : (s'.parses.map (·.messageId)).Nodup)
    (hparses : ∀ p ∈ s'.parses,
      p ∈ s.parses ∨ s'.Present p.messageId ∧ s'.PhaseSound p.messageId p.phase) : Sound s' := by
  have hpresent (id : Text) (hid : s.Present id) : s'.Present id := by
    unfold AttachmentState.Present
    rw [hdb]
    exact hid
  have hframe (m : Text) : Frame m s s' :=
    ⟨hpresent, hissued, fun _ _ _ _ hfile => hfiles _ hfile, fun _ => hfiles,
      fun row hrow => .inl (hdb ▸ hrow)⟩
  refine ⟨⟨?_, ?_, ?_⟩, hledger, ?_, ?_, ?_, hsingle, ?_⟩
  · rw [hdb]
    exact h.store.consistent
  · rw [hdb]
    intro row hrow
    obtain ⟨hnamed, hfile⟩ := h.store.rows row hrow
    exact ⟨hnamed.mono hissued, hfiles _ hfile⟩
  · rw [hdb]
    exact h.store.counts
  · intro j hj
    rcases hjobs j hj with hold | hnew
    · exact (hframe []).jobSound (h.jobs j hold)
    · exact hnew
  · intro x hx
    rcases hmanifests x hx with hold | hnew
    · exact (hframe []).manifestSound (h.manifests x hold)
    · exact hnew
  · intro f hf
    rcases hheld f hf with hold | hnew
    · exact (hframe []).heldSound (h.held f hold)
    · exact hnew
  · intro p hp
    rcases hparses p hp with hold | hnew
    · obtain ⟨hthere, hphase⟩ := h.parses p hold
      -- the frame of any other message will do
      have hother : p.messageId ≠ 'x' :: p.messageId := fun heq =>
        Nat.ne_of_lt (Nat.lt_succ_self _) (congrArg List.length heq)
      exact ⟨hpresent _ hthere, (hframe _).phaseSound hledger hother hphase⟩
    · exact hnew

/-- Less in memory. -/
theorem Sound.forgets (h : Sound s) (hdb : s'.db = s.db) (hissued : s'.issued = s.issued)
    (hfiles : s'.files = s.files) (hmanifests : s'.manifests = s.manifests)
    (hjobs : s'.jobs.Sublist s.jobs) (hheld : s'.held.Sublist s.held)
    (hparses : s'.parses.Sublist s.parses) : Sound s' := by
  apply h.grows hdb
  · rw [hissued]
    exact fun _ hx => hx
  · rw [hfiles]
    exact fun _ hx => hx
  · rw [hissued]
    exact h.ledger
  · exact fun j hj => .inl (hjobs.subset hj)
  · rw [hmanifests]
    exact fun x hx => .inl hx
  · exact fun f hf => .inl (hheld.subset hf)
  · exact h.single.sublist (hparses.map _)
  · exact fun p hp => .inl (hparses.subset hp)

theorem map_reference_id (attachments : List ParsedAttachment) :
    (attachments.map ParsedAttachment.reference).map (·.id) = attachments.map (·.attachmentId) := by
  rw [List.map_map]
  rfl

theorem map_reference_partIndex (attachments : List ParsedAttachment) :
    (attachments.map ParsedAttachment.reference).map (·.partIndex) = attachments.map (·.partIndex) := by
  rw [List.map_map]
  rfl

section
variable {E : StoreEnv} {C : Worker.Config} {guessExtension : Text → Option Text}

/-- The metadata of a job names the files by the ids that are drawn. -/
theorem prepareResult_owned (hC : C.NumbersParts) {job : MailJob} {ids : List Text}
    (hids : (BatchWriter.attachmentsOf
      (Worker.prepareResult C job (C.parseMessage job.rawContent))).map (·.attachmentId) = ids)
    (hdraws : s.Draws job.messageId ids) :
    Owned (s.draw job.messageId ids).issued job.messageId
        (Worker.prepareResult C job (C.parseMessage job.rawContent)).references ∧
      (Worker.prepareResult C job (C.parseMessage job.rawContent)).Counted := by
  cases hparse : C.parseMessage job.rawContent with
  | failed message =>
    refine ⟨⟨fun _ hr => absurd hr List.not_mem_nil, List.nodup_nil, List.nodup_nil⟩, ?_⟩
    intro p hp
    cases hp
  | parsed mail =>
    rw [hparse] at hids
    obtain ⟨hcount, hparts, hnamed⟩ :=
      @Worker.prepareParsedArtifactMetadata_attachments C job mail
    refine ⟨⟨?_, ?_, ?_⟩, ?_⟩
    · intro r hr
      obtain ⟨a, ha, rfl⟩ := List.mem_map.mp hr
      have hid : a.attachmentId ∈ ids := hids ▸ List.mem_map_of_mem ha
      refine ⟨List.mem_append_left _ (List.mem_map_of_mem hid), a.safeFilename, hnamed a ha⟩
    · unfold ParseResult.references
      rw [map_reference_id, hids]
      exact hdraws.2.1
    · unfold ParseResult.references
      rw [map_reference_partIndex]
      exact hparts ▸ hC _ _ hparse
    · rintro p hp
      cases hp
      exact hcount

theorem finalResult?_eq {j : IngestJob} {result : Option ParseResult}
    (h : finalResult? j = some result) : result = none ∨ result = some j.result := by
  unfold finalResult? Worker.finalManifest? at h
  split at h
  · rename_i path job' result' hfinal
    cases h
    split at hfinal
    · cases hfinal
    · split at hfinal
      · cases hfinal
        exact .inr rfl
      · split at hfinal
        · cases hfinal
        · split at hfinal
          · cases hfinal
          · cases hfinal
            exact .inl rfl
  · cases h

theorem mem_putManifest {job : MailJob} {result : Option ParseResult} {x : MailJob × Option ParseResult}
    (hx : x ∈ (s.putManifest job result).manifests) : x = (job, result) ∨ x ∈ s.manifests := by
  rcases List.mem_cons.mp hx with rfl | hx
  · exact .inl rfl
  · exact .inr (List.mem_of_mem_filter hx)

theorem Sound.takeJob (h : Sound s) (hC : C.NumbersParts) {job : MailJob}
    (hstep : daemonStep E C s (.takeJob job) = some s') : Sound s' := by
  unfold daemonStep at hstep
  dsimp only at hstep
  split at hstep
  · rename_i hdraws
    cases hstep
    obtain ⟨howned, hcounted⟩ := prepareResult_owned hC rfl hdraws
    apply h.grows
    · rfl
    · exact fun x hx => List.mem_append_right _ hx
    · exact fun _ hfile => hfile
    · exact h.ledger.draw hdraws
    · intro j hj
      rcases List.mem_cons.mp hj with rfl | hj
      · exact .inr ⟨howned, hcounted, fun _ _ _ hwritten => absurd hwritten List.not_mem_nil, nofun⟩
      · exact .inl hj
    · exact fun _ hx => .inl hx
    · exact fun _ hf => .inl hf
    · exact h.single
    · exact fun _ hp => .inl hp
  · cases hstep

/-- A job of the list is replaced. -/
theorem Sound.setJob (h : Sound s) {i : Nat} {j : IngestJob} (files : List Text)
    (hfiles : ∀ path ∈ s.files, path ∈ files)
    (hj : JobSound { s with files := files } j) :
    Sound { s with files := files, jobs := s.jobs.set i j } := by
  apply h.grows
  · rfl
  · exact fun _ hx => hx
  · exact hfiles
  · exact h.ledger
  · intro x hx
    rcases List.mem_or_eq_of_mem_set hx with hold | rfl
    · exact .inl hold
    · exact .inr ⟨hj.owned, hj.counted, hj.files, hj.written⟩
  · exact fun _ hx => .inl hx
  · exact fun _ hf => .inl hf
  · exact h.single
  · exact fun _ hp => .inl hp

theorem Sound.putManifest (h : Sound s) {job : MailJob} {result : Option ParseResult}
    (hsound : s.ManifestSound (job, result)) : Sound (s.putManifest job result) := by
  apply h.grows
  · rfl
  · exact fun _ hx => hx
  · exact fun _ hx => hx
  · exact h.ledger
  · exact fun _ hj => .inl hj
  · intro x hx
    rcases mem_putManifest hx with rfl | hold
    · refine .inr fun result hresult => ?_
      obtain ⟨hbacked, hcounted⟩ := hsound result hresult
      exact ⟨⟨hbacked.owned, hbacked.files⟩, hcounted⟩
    · exact .inl hold
  · exact fun _ hf => .inl hf
  · exact h.single
  · exact fun _ hp => .inl hp

theorem Sound.writeArtifact (h : Sound s) {i : Nat} {path : Text}
    (hstep : daemonStep E C s (.writeArtifact i path) = some s') : Sound s' := by
  obtain ⟨j, hj, hwrite⟩ := Option.bind_eq_some_iff.mp hstep
  split at hwrite
  · cases hwrite
    have hsound := h.jobs j (List.mem_of_getElem? hj)
    apply h.setJob
    · exact fun _ hfile => List.mem_cons_of_mem _ hfile
    · refine ⟨hsound.owned, hsound.counted, ?_, ?_⟩
      · intro habsent r hr hwritten
        rcases List.mem_cons.mp hwritten with heq | hold
        · exact List.mem_cons.mpr (.inl heq)
        · exact List.mem_cons_of_mem _ (hsound.files habsent r hr hold)
      · intro hfinal r hr
        exact List.mem_cons_of_mem _ (hsound.written hfinal r hr)
  · cases hwrite

theorem mem_attachmentPaths {result : ParseResult} {r : AttachmentReference}
    (hr : r ∈ result.references) : r.storagePath ∈ result.attachmentPaths := by
  obtain ⟨a, ha, rfl⟩ := List.mem_map.mp hr
  exact List.mem_map_of_mem (f := fun a : ParsedAttachment => a.storagePath) ha

theorem Sound.writeFinal (h : Sound s) {i : Nat}
    (hstep : daemonStep E C s (.writeFinal i) = some s') : Sound s' := by
  obtain ⟨j, hj, hwrite⟩ := Option.bind_eq_some_iff.mp hstep
  split at hwrite
  · rename_i hall
    obtain ⟨result, hresult, rfl⟩ := Option.map_eq_some_iff.mp hwrite
    have hsound := h.jobs j (List.mem_of_getElem? hj)
    have hwritten (r : AttachmentReference) (hr : r ∈ j.result.references) :
        r.storagePath ∈ j.written := hall _ (mem_attachmentPaths hr)
    have hmanifest : s.ManifestSound (j.job, result) := by
      intro found hfound
      rcases finalResult?_eq hresult with rfl | rfl
      · cases hfound
      · cases hfound
        exact ⟨⟨hsound.owned, fun habsent r hr => hsound.files habsent r hr (hwritten r hr)⟩,
          hsound.counted⟩
    have hput := h.putManifest hmanifest
    exact hput.setJob s.files (fun _ hfile => hfile)
      ⟨hsound.owned, hsound.counted, hsound.files, fun _ => hwritten⟩
  · cases hwrite

theorem Sound.commit (h : Sound s) {places : List Nat}
    (hstep : daemonStep E C s (.commit places) = some s') : Sound s' := by
  unfold daemonStep at hstep
  dsimp only at hstep
  split at hstep
  · rename_i hwritten
    cases hstep
    have hcons := Db.write_consistent (E := E) h.store.consistent
      (.store (.commit ((places.filterMap (s.jobs[·]?)).map fun j => (j.job, j.result))))
    rcases Db.write_eq_or E s.db
      (.store (.commit ((places.filterMap (s.jobs[·]?)).map fun j => (j.job, j.result)))) with
      hsame | ⟨db, hok, hdb⟩
    · rw [hsame]
      exact h
    · rw [hdb]
      refine h.storeRecords ?_ hok
      intro x hx
      obtain ⟨j, hj, rfl⟩ := List.mem_map.mp hx
      obtain ⟨i, -, hplace⟩ := List.mem_filterMap.mp hj
      have hsound := h.jobs j (List.mem_of_getElem? hplace)
      have hfinal := List.all_eq_true.mp hwritten j hj
      exact ⟨⟨hsound.owned, fun habsent r hr => hsound.files habsent r hr (hsound.written hfinal r hr)⟩,
        hsound.counted⟩
  · cases hstep

/-- A step of the daemon. -/
theorem Sound.daemonStep (h : Sound s) (E : StoreEnv) (hC : C.NumbersParts) {a : AttachmentAction}
    (hstep : daemonStep E C s a = some s') : Sound s' := by
  cases a with
  | takeJob job => exact h.takeJob hC hstep
  | writePending i =>
    obtain ⟨j, hj, rfl⟩ := Option.map_eq_some_iff.mp hstep
    have hnone : s.ManifestSound (j.job, none) := by
      intro result hresult
      cases hresult
    exact h.putManifest hnone
  | writeArtifact i path => exact h.writeArtifact hstep
  | writeFinal i => exact h.writeFinal hstep
  | commit places => exact h.commit hstep
  | retry i =>
    obtain ⟨j, hj, rfl⟩ := Option.map_eq_some_iff.mp hstep
    have hsound := h.jobs j (List.mem_of_getElem? hj)
    exact h.setJob s.files (fun _ hfile => hfile)
      ⟨hsound.owned, hsound.counted, fun _ _ _ hwritten => absurd hwritten List.not_mem_nil, nofun⟩
  | endJob i =>
    cases hstep
    exact h.forgets rfl rfl rfl rfl (List.eraseIdx_sublist _ _) (.refl _) (.refl _)
  | daemonCrash =>
    cases hstep
    exact h.forgets rfl rfl rfl rfl (List.nil_sublist _) (.refl _) (.refl _)
  | _ => cases hstep

/-- What a pass holds is what the daemon has written. -/
theorem ManifestSound.reads {x : MailJob × Option ParseResult} (h : s.ManifestSound x)
    {f : RecoveryManifest} (hreads : f.Reads x.1 x.2) : s.HeldSound f := by
  obtain ⟨hid, -, -, -, hparsed⟩ := hreads
  have hnone (hempty : f.references = []) (hcounted : f.Counted) : s.HeldSound f := by
    refine ⟨⟨?_, ?_⟩, hcounted⟩
    · rw [hempty]
      exact ⟨fun _ h => absurd h List.not_mem_nil, List.nodup_nil, List.nodup_nil⟩
    · rw [hempty]
      exact fun _ _ h => absurd h List.not_mem_nil
  obtain ⟨job, result⟩ := x
  cases hcase : f.parsed with
  | pending =>
    apply hnone
    · unfold RecoveryManifest.references RecoveryManifest.attachments
      rw [hcase]
      rfl
    · intro c hc
      cases hcase.symm.trans hc
  | failed e =>
    apply hnone
    · unfold RecoveryManifest.references RecoveryManifest.attachments
      rw [hcase]
      rfl
    · intro c hc
      cases hcase.symm.trans hc
  | parsed c =>
    rw [hcase] at hparsed
    cases result with
    | none => exact absurd hparsed id
    | some result =>
      cases result with
      | failed message => exact absurd hparsed id
      | parsed p =>
        obtain ⟨hcount, hrefs⟩ : c.attachmentCount = p.attachmentCount ∧
          c.attachments.map RecoveryAttachment.reference =
            p.attachments.map ParsedAttachment.reference := hparsed
        obtain ⟨hbacked, hcounted⟩ := h _ rfl
        have hreferences : f.references = (ParseResult.parsed p).references := by
          unfold RecoveryManifest.references RecoveryManifest.attachments
          rw [hcase]
          exact hrefs
        refine ⟨?_, ?_⟩
        · rw [hreferences, hid]
          exact hbacked
        · intro c' hc'
          cases hcase.symm.trans hc'
          have hlength := congrArg List.length hrefs
          rw [List.length_map, List.length_map] at hlength
          rw [hcount, hlength]
          exact hcounted p rfl

theorem Sound.scan (h : Sound s) {f : RecoveryManifest}
    (hstep : recoveryStep E s (.scan f) = some s') : Sound s' := by
  unfold recoveryStep at hstep
  dsimp only at hstep
  split at hstep
  · rename_i hguard
    cases hstep
    obtain ⟨⟨x, hx, hreads⟩, -⟩ := hguard
    have hheld := ManifestSound.reads (h.manifests x hx) hreads
    apply h.grows
    · rfl
    · exact fun _ hy => hy
    · exact fun _ hfile => hfile
    · exact h.ledger
    · exact fun _ hj => .inl hj
    · exact fun _ hy => .inl hy
    · intro g hg
      rcases List.mem_cons.mp hg with rfl | hg
      · exact .inr ⟨⟨hheld.1.owned, hheld.1.files⟩, hheld.2⟩
      · exact .inl hg
    · exact h.single
    · exact fun _ hp => .inl hp
  · cases hstep

/-- A replay that runs is one that refuses its attachments. -/
def ReplaysRefused (s : AttachmentState) : AttachmentAction → Prop
  | .replay i _ => ∀ f ∈ s.held[i]?.toList, RefusesAttachments s.db f
  | _ => True

theorem Sound.replayHeld (h : Sound s) {i : Nat} {deliveryIds : Nat → Text}
    (hrefused : ReplaysRefused s (.replay i deliveryIds))
    (hstep : recoveryStep E s (.replay i deliveryIds) = some s') : Sound s' := by
  obtain ⟨f, hf, rfl⟩ := Option.map_eq_some_iff.mp hstep
  have hheld := h.held f (List.mem_of_getElem? hf)
  have hcons := Db.write_consistent (E := E) h.store.consistent (.store (.recover f deliveryIds))
  have hwritten : Sound { s with db := s.db.write E (.store (.recover f deliveryIds)) } := by
    rcases Db.write_eq_or E s.db (.store (.recover f deliveryIds)) with hsame | ⟨db, hok, hdb⟩
    · rw [hsame]
      exact h
    · rw [hdb] at hcons ⊢
      have hrefuses : RefusesAttachments s.db f := by
        apply hrefused f
        rw [hf]
        exact List.mem_singleton_self f
      exact h.replay (pyAddressOps_lawful E.py) hheld hrefuses hcons hok
  exact hwritten.forgets rfl rfl rfl rfl (.refl _) (List.eraseIdx_sublist _ _) (.refl _)

/-! ## Steps of a parse -/

theorem Sound.beginParse (h : Sound s) {messageId : Text} {ids : Nat → Text} {parts : List WalkedPart}
    (hstep : parseStep guessExtension s (.beginParse messageId ids parts) = some s') : Sound s' := by
  unfold parseStep at hstep
  dsimp only at hstep
  split at hstep
  · rename_i hguard
    cases hstep
    obtain ⟨hpresent, hnone, hdraws⟩ := hguard
    obtain ⟨limit, hnumbered⟩ := @PythonParser.extractParts_numbered
      guessExtension messageId ids parts
    apply h.grows
    · rfl
    · exact fun _ hx => List.mem_append_right _ hx
    · exact fun _ hfile => hfile
    · exact h.ledger.draw hdraws
    · exact fun _ hj => .inl hj
    · exact fun _ hx => .inl hx
    · exact fun _ hf => .inl hf
    · refine List.nodup_cons.mpr ⟨?_, h.single⟩
      intro hmem
      obtain ⟨p, hp, hid⟩ := List.mem_map.mp hmem
      exact List.find?_eq_none.mp hnone p hp (decide_eq_true hid)
    · intro p hp
      rcases List.mem_cons.mp hp with rfl | hp
      · refine .inr ⟨hpresent, ?_, ?_⟩
        · intro a ha
          have hdrawn := List.mem_map_of_mem (f := ExtractedAttachment.attachmentId) ha
          refine ⟨⟨List.mem_append_left _ (List.mem_map_of_mem hdrawn), a.safeFilename,
            (hnumbered.named a ha).2.2⟩, ?_⟩
          intro row hrow hid
          have hissued := List.mem_map_of_mem (f := Prod.snd) (h.store.rows row hrow).1.issued
          have heq : row.reference.id = a.attachmentId := hid
          rw [heq] at hissued
          exact (hdraws.2.2 _ hdrawn).2 hissued
        · exact fun _ h => absurd h List.not_mem_nil
      · exact .inl hp
  · cases hstep

theorem Sound.writePart (h : Sound s) {messageId : Text}
    (hstep : parseStep guessExtension s (.writePart messageId) = some s') : Sound s' := by
  unfold parseStep at hstep
  dsimp only at hstep
  split at hstep
  · rename_i attachments raised written hphase
    obtain ⟨a, ha, rfl⟩ := Option.map_eq_some_iff.mp hstep
    obtain ⟨hpresent, hids, hfiles⟩ := h.parses _ (mem_of_parseOf? hphase)
    apply h.grows
    · rfl
    · exact fun _ hx => hx
    · exact fun _ hfile => List.mem_cons_of_mem _ hfile
    · exact h.ledger
    · exact fun _ hj => .inl hj
    · exact fun _ hx => .inl hx
    · exact fun _ hf => .inl hf
    · show ((s.setPhase _ _).parses.map (·.messageId)).Nodup
      rw [setPhase_messageIds]
      exact h.single
    · intro p hp
      rcases mem_setPhase hp with rfl | ⟨hold, -⟩
      · refine .inr ⟨hpresent, hids, ?_⟩
        intro b hb
        rw [List.take_add_one, ha] at hb
        rcases List.mem_append.mp hb with hb | hb
        · exact List.mem_cons_of_mem _ (hfiles b hb)
        · rw [List.mem_singleton.mp hb]
          exact List.mem_cons_self
      · exact .inl hold
  · cases hstep

theorem Sound.applyParsed (h : Sound s) {messageId : Text} {columns : MessageContent}
    {createdAt : Timestamp}
    (hstep : parseStep guessExtension s (.applyParsed messageId columns createdAt) = some s') :
    Sound s' := by
  unfold parseStep at hstep
  dsimp only at hstep
  split at hstep
  · rename_i attachments written hphase
    split at hstep
    · rename_i hall
      obtain ⟨hpresent, hids, hfiles⟩ := h.parses _ (mem_of_parseOf? hphase)
      split at hstep
      · rename_i db hok
        cases hstep
        apply h.resets (Db.applyParsedMessage_resets hok)
          (Db.applyParsedMessage_spec h.store.consistent hok).1
        · intro row hrow
          obtain ⟨a, ha, rfl⟩ := List.mem_map.mp hrow
          refine ⟨rfl, (hids a ha).1, hfiles a ?_⟩
          rw [hall, List.take_length]
          exact ha
        · rw [List.length_map]
          exact ⟨fun _ => rfl, nofun⟩
        · exact hpresent
        · intro row hrow old hold
          obtain ⟨a, ha, rfl⟩ := List.mem_map.mp hrow
          exact (hids a ha).2 old hold
      · cases hstep
        exact h.forgets rfl rfl rfl rfl (.refl _) (.refl _) List.filter_sublist
    · cases hstep
  · cases hstep

theorem Sound.parseFailed (h : Sound s) {messageId : Text} {error : Bytes} {indexedAt : Timestamp}
    (hstep : parseStep guessExtension s (.parseFailed messageId error indexedAt) = some s') :
    Sound s' := by
  unfold parseStep at hstep
  dsimp only at hstep
  split at hstep
  · rename_i attachments raised written hphase
    cases hstep
    obtain ⟨hpresent, -⟩ := h.parses _ (mem_of_parseOf? hphase)
    apply h.resets (Db.markMessageParseFailed_resets s.db messageId error indexedAt)
      (Db.markMessageParseFailed_spec h.store.consistent error indexedAt).1
    · exact fun _ h => absurd h List.not_mem_nil
    · exact ⟨nofun, fun _ => rfl⟩
    · exact hpresent
    · exact fun _ hrow => absurd hrow List.not_mem_nil
  · cases hstep

/-- A file is unlinked: no row names it, and no other message has it. -/
theorem Sound.unlink (h : Sound s) {messageId : Text}
    (hstep : parseStep guessExtension s (.unlink messageId) = some s') : Sound s' := by
  unfold parseStep at hstep
  dsimp only at hstep
  split at hstep
  · rename_i path rest hphase
    cases hstep
    obtain ⟨hpresent, hpaths⟩ := h.parses _ (mem_of_parseOf? hphase)
    obtain ⟨⟨r, hnamed, rfl⟩, hrows⟩ := hpaths path List.mem_cons_self
    apply h.work s.db
    · refine ⟨fun _ hid => hid, fun _ hx => hx, ?_, fun habsent => absurd hpresent habsent,
        fun _ hrow => .inl hrow⟩
      intro id r' hid hnamed' hfile
      refine List.mem_filter.mpr ⟨hfile, decide_eq_true fun hsame => hid ?_⟩
      exact (h.ledger.path hnamed' hnamed hsame).1
    · refine ⟨h.store.consistent, ?_, h.store.counts⟩
      intro row hrow
      obtain ⟨hrowNamed, hfile⟩ := h.store.rows row hrow
      exact ⟨hrowNamed, List.mem_filter.mpr ⟨hfile, decide_eq_true (hrows row hrow)⟩⟩
    · exact hpresent
    · intro other hother
      exact hpaths other (List.mem_cons_of_mem _ hother)
  · cases hstep

theorem Sound.parseStep (h : Sound s) (guessExtension : Text → Option Text) {a : AttachmentAction}
    (hstep : parseStep guessExtension s a = some s') : Sound s' := by
  cases a with
  | beginParse messageId ids parts => exact h.beginParse hstep
  | writePart messageId => exact h.writePart hstep
  | applyParsed messageId columns createdAt => exact h.applyParsed hstep
  | parseFailed messageId error indexedAt => exact h.parseFailed hstep
  | unlink messageId => exact h.unlink hstep
  | endParse messageId =>
    cases hstep
    exact h.forgets rfl rfl rfl rfl (.refl _) (.refl _) List.filter_sublist
  | _ => cases hstep

/-! ## Runs -/

theorem Sound.requeue (h : Sound s) (messageId : Text) :
    Sound { s with db := s.db.write E (.requeueParse messageId) } := by
  have hmessages : (s.db.write E (.requeueParse messageId)).messages =
      Table.updateWhere (fun m => m.id = messageId) (fun m => { m with
        content := { m.content with parseStatus := .pending, parseError := none } }) s.db.messages :=
    rfl
  have hrows : (s.db.write E (.requeueParse messageId)).attachments = s.db.attachments := rfl
  apply h.sameRows hrows
  · intro id hid
    obtain ⟨old, hold, hid⟩ := hid
    rw [hmessages]
    refine ⟨_, Table.mem_updateWhere.mpr ⟨old, hold, rfl⟩, ?_⟩
    split <;> exact hid
  · have hcons := Db.write_consistent (E := E) h.store.consistent (.requeueParse messageId)
    refine ⟨hcons, h.store.rows, ?_⟩
    intro m hm
    have hm' : m ∈ (s.db.write E (.requeueParse messageId)).messages := hm
    rw [hmessages] at hm'
    obtain ⟨old, hold, rfl⟩ := Table.mem_updateWhere.mp hm'
    split
    · exact ⟨nofun, nofun⟩
    · exact h.store.counts old hold

/-- A step of the system. -/
theorem Sound.step (h : Sound s) (hC : C.NumbersParts) {a : AttachmentAction}
    (hrefused : ReplaysRefused s a) (hstep : step E C guessExtension s a = some s') : Sound s' := by
  cases a with
  | scan manifest => exact h.scan (E := E) hstep
  | replay i deliveryIds => exact h.replayHeld (E := E) hrefused hstep
  | runtimeCrash =>
    cases hstep
    exact h.forgets rfl rfl rfl rfl (.refl _) (List.nil_sublist _) (List.nil_sublist _)
  | requeue messageId =>
    cases hstep
    exact h.requeue messageId
  | other w =>
    unfold AttachmentSystem.step at hstep
    dsimp only at hstep
    split at hstep
    · rename_i hsame
      cases hstep
      exact h.same ⟨hsame.1, hsame.2⟩ (Db.write_consistent h.store.consistent w)
    · cases hstep
  | beginParse messageId ids parts => 
    exact h.parseStep guessExtension (a := .beginParse messageId ids parts) hstep
  | writePart messageId => exact h.parseStep guessExtension (a := .writePart messageId) hstep
  | applyParsed messageId columns createdAt =>
    exact h.parseStep guessExtension (a := .applyParsed messageId columns createdAt) hstep
  | parseFailed messageId error indexedAt =>
    exact h.parseStep guessExtension (a := .parseFailed messageId error indexedAt) hstep
  | unlink messageId => exact h.parseStep guessExtension (a := .unlink messageId) hstep
  | endParse messageId => exact h.parseStep guessExtension (a := .endParse messageId) hstep
  | takeJob job => exact h.daemonStep E hC (a := .takeJob job) hstep
  | writePending i => exact h.daemonStep E hC (a := .writePending i) hstep
  | writeArtifact i path => exact h.daemonStep E hC (a := .writeArtifact i path) hstep
  | writeFinal i => exact h.daemonStep E hC (a := .writeFinal i) hstep
  | commit places => exact h.daemonStep E hC (a := .commit places) hstep
  | retry i => exact h.daemonStep E hC (a := .retry i) hstep
  | endJob i => exact h.daemonStep E hC (a := .endJob i) hstep
  | daemonCrash => exact h.daemonStep E hC (a := .daemonCrash) hstep

theorem Sound.initial (h : Initial s) : Sound s := by
  obtain ⟨hcons, hmessages, hattachments, hissued, hmanifests, hheld, hjobs, hparses⟩ := h
  have hledger : Ledger s.issued := by
    rw [hissued]
    exact ⟨List.nodup_nil, fun _ hx => absurd hx List.not_mem_nil⟩
  have hstore : StoreSound s := by
    refine ⟨hcons, ?_, ?_⟩
    · rw [hattachments]
      exact fun _ hrow => absurd hrow List.not_mem_nil
    · rw [hmessages]
      exact fun _ hm => absurd hm List.not_mem_nil
  refine ⟨hstore, hledger, ?_, ?_, ?_, ?_, ?_⟩
  · rw [hjobs]
    exact fun _ hj => absurd hj List.not_mem_nil
  · rw [hmanifests]
    exact fun _ hx => absurd hx List.not_mem_nil
  · rw [hheld]
    exact fun _ hf => absurd hf List.not_mem_nil
  · rw [hparses]
    exact List.nodup_nil
  · rw [hparses]
    exact fun _ hp => absurd hp List.not_mem_nil

end

/-- Every row names a file; a parsed message has as many rows as its columns say, and one that could
    not be parsed has none; and a path that is to be unlinked next is named by no row. -/
structure Intact (s : AttachmentState) : Prop where
  files : ∀ row ∈ s.db.attachments, row.storagePath ∈ s.files
  parsed : ∀ m ∈ s.db.messages, m.content.parseStatus = .parsed →
    m.content.attachmentCount = (s.db.attachmentRows m.id).length
  failed : ∀ m ∈ s.db.messages, m.content.parseStatus = .failed → s.db.attachmentRows m.id = []
  unlinks : ∀ messageId path rest,
    (s.parseOf? messageId).map ParseWork.phase = some (.unlinking (path :: rest)) →
      ∀ row ∈ s.db.attachments, row.storagePath ≠ path

theorem Sound.intact {s : AttachmentState} (h : Sound s) : Intact s where
  files row hrow := (h.store.rows row hrow).2
  parsed m hm hparsed := (h.store.counts m hm).1 hparsed
  failed m hm hfailed := List.eq_nil_of_length_eq_zero ((h.store.counts m hm).2 hfailed)
  unlinks messageId path rest hphase := by
    obtain ⟨-, hpaths⟩ := h.parses _ (mem_of_parseOf? hphase)
    exact (hpaths path List.mem_cons_self).2

/-- In every run whose replays find no row of their message, or all of its attachments held, the rows
    and the files agree. -/
theorem attachments_intact (E : StoreEnv) (P : MimePlatform) (code : ParsedMail → Option Bytes)
    (maxMessages maxRetries : Nat) (guessExtension : Text → Option Text) {s s' : AttachmentState}
    {actions : List AttachmentAction} (hinit : Initial s)
    (hrefused : Transition.Along
      (step E (Mime.workerConfig P code maxMessages maxRetries) guessExtension) ReplaysRefused s actions)
    (hrun : Transition.run (step E (Mime.workerConfig P code maxMessages maxRetries) guessExtension) s
      actions = some s') : Intact s' := by
  have hC := Worker.numbersParts_workerConfig P code maxMessages maxRetries
  have hsound : Sound s' := Transition.run_invariant_along
    (fun _ _ _ h hrefused hstep => h.step hC hrefused hstep) (.initial hinit) hrefused hrun
  exact hsound.intact

/-! ## A replay after a parse that failed -/

instance (db : Db) (f : RecoveryManifest) : Decidable (RefusesAttachments db f) :=
  inferInstanceAs (Decidable (_ ∨ _))

instance (s : AttachmentState) : (a : AttachmentAction) → Decidable (ReplaysRefused s a)
  | .replay i _ => inferInstanceAs (Decidable (∀ f ∈ s.held[i]?.toList, RefusesAttachments s.db f))
  | .takeJob _ | .writePending _ | .writeArtifact _ _ | .writeFinal _ | .commit _ | .retry _
  | .endJob _ | .daemonCrash | .scan _ | .beginParse _ _ _ | .writePart _ | .applyParsed _ _ _
  | .parseFailed _ _ _ | .unlink _ | .endParse _ | .runtimeCrash | .requeue _ | .other _ =>
    isTrue trivial

/-- A text in a character set that Python does not know, and an attachment. -/
def bogusCharset : Bytes :=
  Mime.ascii ("Content-Type: multipart/x; boundary=b\n\n--b\nContent-Type: text/plain; charset=y\n\nhi\n" ++
    "--b\nContent-ID: x\n\n--b--")

def bogusCharsetJob : MailJob :=
  { (sampleJob "msg_1" 0 [sampleRecipient "dlv_1" (sampleMatch 1 "example.com" "a" "example.com")]).1 with
    rawContent := bogusCharset }

def sampleConfig : Worker.Config := Mime.workerConfig MimeTree.plainPlatform (fun _ => none) 1 0

/-- The file the daemon writes. -/
def bogusCharsetPath : Text := "attachments/msg_1/att_-x.txt".toList

/-- The manifest of the job as a pass reads it. -/
def bogusCharsetManifest : RecoveryManifest :=
  { messageId := "msg_1".toList
    smtpSessionId := none
    envelopeFrom := none
    receivedAt := 0
    rawPath := rawMessagePath "msg_1".toList 0
    rawSha256 := []
    rawSizeBytes := bogusCharset.length
    recipients := .receipts (bogusCharsetJob.recipients.map RecipientDelivery.receipt)
    parsed := .parsed
      { messageIdHeader := none
        subject := none
        fromName := none
        fromAddr := none
        replyTo := none
        dateHeader := none
        hasText := true
        hasHtml := false
        hasAttachments := true
        attachmentCount := 1
        textPreview := some "hi".toList
        textBodyPath := none
        htmlBodyPath := none
        headers := []
        verificationCode := none
        attachments :=
          [{ id := "att_".toList
             partIndex := 1
             filename := some "x.txt".toList
             safeFilename := "x.txt".toList
             contentType := "text/plain".toList
             contentDisposition := none
             contentId := some "x".toList
             storagePath := bogusCharsetPath
             sha256 := none
             sizeBytes := 0
             isInline := false }] } }

/-- What the Python library says about the first part that is no multipart. -/
def bogusCharsetParts : List WalkedPart :=
  [{ isMultipart := true
     contentDisposition := none
     contentType := "multipart/x".toList
     content := .ok []
     filename := none
     payload := none
     contentId := none },
   { isMultipart := false
     contentDisposition := none
     contentType := "text/plain".toList
     content := .error "unknown encoding: y".toList
     filename := none
     payload := some []
     contentId := none }]

/-- A pass reads the manifest before the commit and replays it after a parse that has failed. -/
def staleReplay : List AttachmentAction :=
  [.other (.store (.createDomain "example.com".toList "j".toList .unset)),
    .takeJob bogusCharsetJob, .writePending 0, .writeArtifact 0 bogusCharsetPath, .writeFinal 0,
    .scan bogusCharsetManifest, .commit [0], .endJob 0, .requeue "msg_1".toList,
    .beginParse "msg_1".toList (fun _ => []) bogusCharsetParts,
    .parseFailed "msg_1".toList [] 0, .unlink "msg_1".toList, .endParse "msg_1".toList,
    .replay 0 fun _ => "dlv_2".toList]

def emptyState : AttachmentState := ⟨.empty, [], [], [], [], [], []⟩

theorem emptyState_initial : Initial emptyState :=
  ⟨Db.empty_consistent, rfl, rfl, rfl, rfl, rfl, rfl, rfl⟩

/-- The message has failed, and has a row whose file is gone. -/
theorem staleReplay_breaks :
    ∃ s', Transition.run (step .ascii sampleConfig fun _ => none) emptyState staleReplay = some s' ∧
      (∃ m ∈ s'.db.messages, m.content.parseStatus = .failed ∧ s'.db.attachmentRows m.id ≠ []) ∧
      ∃ row ∈ s'.db.attachments, row.storagePath ∉ s'.files := by
  have hrun : (Transition.run (step .ascii sampleConfig fun _ => none) emptyState staleReplay).map
      (fun s' => (s'.db.messages.any fun m => m.content.parseStatus = .failed &&
        (s'.db.attachmentRows m.id ≠ []), s'.db.attachments.any fun row => row.storagePath ∉ s'.files)) =
        some (true, true) := by
    decide +kernel
  obtain ⟨s', hs', hchecks⟩ := Option.map_eq_some_iff.mp hrun
  obtain ⟨hfailed, hlost⟩ := Prod.mk.inj hchecks
  obtain ⟨m, hm, hcond⟩ := List.any_eq_true.mp hfailed
  obtain ⟨row, hrow, hfile⟩ := List.any_eq_true.mp hlost
  rw [Bool.and_eq_true] at hcond
  exact ⟨s', hs', ⟨m, hm, of_decide_eq_true hcond.1, of_decide_eq_true hcond.2⟩, row, hrow,
    of_decide_eq_true hfile⟩

/-- A pass replays the pending manifest of a job, and the parse queue finds one attachment. -/
def pendingReplay : List AttachmentAction :=
  let job := (sampleJob "msg_1" 0
    [sampleRecipient "dlv_1" (sampleMatch 1 "example.com" "a" "example.com")]).1
  [.other (.store (.createDomain "example.com".toList "j".toList .unset)), .takeJob job,
    .writePending 0, .scan { bogusCharsetManifest with parsed := .pending },
    .replay 0 fun _ => "dlv_2".toList,
    .beginParse "msg_1".toList (fun _ => "att_0".toList)
      [{ isMultipart := false
         contentDisposition := some "attachment".toList
         contentType := "a/b".toList
         content := .ok []
         filename := none
         payload := some []
         contentId := none }],
    .writePart "msg_1".toList, .applyParsed "msg_1".toList (pendingContent none) 0]

theorem attachments_intact_pendingReplay :
    ∃ s', Transition.run (step .ascii sampleConfig fun _ => none) emptyState pendingReplay = some s' ∧
      s'.db.attachments ≠ [] ∧ Intact s' := by
  have hrun : (Transition.run (step .ascii sampleConfig fun _ => none) emptyState pendingReplay).map
      (fun s' => decide (s'.db.attachments ≠ [])) = some true := by
    decide +kernel
  obtain ⟨s', hs', hrows⟩ := Option.map_eq_some_iff.mp hrun
  refine ⟨s', hs', of_decide_eq_true hrows, ?_⟩
  exact attachments_intact .ascii MimeTree.plainPlatform (fun _ => none) 1 0 (fun _ => none)
    emptyState_initial (by decide +kernel) hs'

end AttachmentSystem
end RapidInbox
