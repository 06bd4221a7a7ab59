import RapidInbox.Store.Directory

/-!
# The current match of an accepted recipient

Over a schema with normalised roots, `current_domain_match` fails only when the accepted domain has
been renamed or deleted.  Otherwise it is a function of the domain rows and of the receipt.
-/

namespace RapidInbox

open Table

/-- Two matches of one domain row have one root. -/
theorem Db.HasDomain.root_eq {db : Db} (hdb : db.Consistent) {m m' : DomainMatch} (h : db.HasDomain m)
    (h' : db.HasDomain m') (hid : m.domainId = m'.domainId) :
    m.rootDomainAscii = m'.rootDomainAscii := by
  obtain ⟨d, hd, hdid, hroot⟩ := h
  obtain ⟨d', hd', hdid', hroot'⟩ := h'
  have heq := hdb.domain_ids.eq_of_mem hd hd' (hdid.trans (hid.trans hdid'.symm))
  rw [← hroot, ← hroot', heq]

/-- A root that normalising leaves alone is normalised. -/
theorem Db.rootsNormalized_of_fixed {db : Db} {A : AddressOps} (hA : A.Lawful)
    (h : ∀ d ∈ db.domains, A.normalizeDomain d.rootDomainAscii = some d.rootDomainAscii) :
    db.RootsNormalized :=
  fun d hd => hA.normalized (h d hd)

namespace BatchWriter

variable {A : AddressOps} {db : Db}

/-- A matcher without rules matches nothing. -/
theorem matchAddress_nil (address : Text) : (DomainMatcher.mk []).matchAddress A address = none := by
  cases h : (DomainMatcher.mk []).matchAddress A address with
  | none => rfl
  | some m =>
    obtain ⟨rule, hrule, -⟩ := DomainMatcher.rule_of_matchAddress h
    cases hrule

/-- The managed match is that of the candidates as they are stored. -/
theorem managedMatch_eq (hA : A.Lawful) (hnorm : db.RootsNormalized) (domainAscii rcptTo : Text) :
    managedMatch A db domainAscii rcptTo =
      .ok ((DomainMatcher.mk (managedCandidates db domainAscii)).matchAddress A rcptTo) := by
  unfold managedMatch
  dsimp only
  split
  · rename_i hempty
    rw [List.isEmpty_iff.mp hempty, matchAddress_nil]
  · rw [DomainMatcher.ofRules?_eq hA]
    intro rule hrule
    obtain ⟨d, hd, rfl, -, -⟩ := mem_managedCandidates hrule
    exact hnorm d hd

/-- The match under the managed candidates, else under the catch-all rule. -/
def refreshedMatch (A : AddressOps) (db : Db) (recipient : RecipientDelivery) : Option DomainMatch :=
  ((DomainMatcher.mk (managedCandidates db recipient.domainMatch.domainAscii)).matchAddress A
    recipient.rcptTo).or (catchAllMatch A db recipient.rcptTo)

/-- The refreshed match, if it is one of the accepted domain or a promotion of it. -/
def currentMatch (A : AddressOps) (db : Db) (recipient : RecipientDelivery) : DomainMatch :=
  let cached := recipient.domainMatch
  if (db.domain? cached.domainId).any fun d => d.policy.isActive then
    match refreshedMatch A db recipient with
    | none => cached
    | some refreshed =>
      if refreshed.domainId = cached.domainId ∨ promotes cached refreshed then refreshed else cached
  else cached

theorem refreshedMatch_hasDomain {recipient : RecipientDelivery} {m : DomainMatch}
    (h : refreshedMatch A db recipient = some m) : db.HasDomain m := by
  rcases Option.or_eq_some_iff.mp h with hmanaged | ⟨-, hcatch⟩
  · obtain ⟨rule, hrule, hid, hroot⟩ := DomainMatcher.rule_of_matchAddress hmanaged
    obtain ⟨d, hd, rfl, -, -⟩ := mem_managedCandidates hrule
    exact ⟨d, hd, hid.symm, hroot.symm⟩
  · exact catchAllMatch_hasDomain hcatch

theorem currentDomainMatch_eq (hA : A.Lawful) (hdb : db.Consistent) (hnorm : db.RootsNormalized)
    {recipient : RecipientDelivery} (hcached : db.HasDomain recipient.domainMatch) :
    currentDomainMatch A db recipient = .ok (currentMatch A db recipient) := by
  obtain ⟨d, hd, hid, hroot⟩ := hcached
  have hfind : db.domain? recipient.domainMatch.domainId = some d :=
    hdb.domain_ids.find?_eq_some hd hid
  unfold currentDomainMatch currentMatch
  dsimp only
  rw [hfind]
  dsimp only
  rw [if_neg (not_not_intro hroot), managedMatch_eq hA hnorm]
  cases hactive : d.policy.isActive with
  | false => simp [hactive]
  | true =>
    simp only [Bool.not_true, Bool.false_eq_true, if_false, Option.any_some, hactive, if_true]
    change (match refreshedMatch A db recipient with
      | none => _
      | some refreshed => _) = _
    cases hrefreshed : refreshedMatch A db recipient with
    | none => rfl
    | some refreshed =>
      dsimp only
      by_cases hsame : refreshed.domainId = recipient.domainMatch.domainId
      · have heq := (refreshedMatch_hasDomain hrefreshed).root_eq hdb ⟨d, hd, hid, hroot⟩ hsame
        rw [if_pos hsame, if_neg (not_not_intro heq), if_pos (.inl hsame)]
      · by_cases hpromotes : promotes recipient.domainMatch refreshed = true
        · rw [if_neg hsame, if_pos hpromotes, if_pos (.inr hpromotes)]
        · rw [if_neg hsame, if_neg hpromotes, if_neg (not_or.mpr ⟨hsame, hpromotes⟩)]

theorem currentMatch_hasDomain {recipient : RecipientDelivery}
    (hcached : db.HasDomain recipient.domainMatch) :
    db.HasDomain (currentMatch A db recipient) := by
  unfold currentMatch
  dsimp only
  split
  · split
    · exact hcached
    · rename_i refreshed hrefreshed
      split
      · exact refreshedMatch_hasDomain hrefreshed
      · exact hcached
  · exact hcached

theorem currentMatch_congr {db' : Db} (h : db'.domains = db.domains)
    (recipient : RecipientDelivery) : currentMatch A db' recipient = currentMatch A db recipient := by
  unfold currentMatch refreshedMatch Db.domain?
  rw [managedCandidates_congr h, catchAllMatch_congr h, h]

end BatchWriter
end RapidInbox
