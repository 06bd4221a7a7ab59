import Mathlib.Data.Prod.Lex
import Mathlib.Data.List.Lex
import Mathlib.Data.Char
import RapidInbox.Auth.ApiKeys
import RapidInbox.Lib.Keyset

/-!
# The list of API keys

`_list_api_keys_keyset_sync` (`app/http/api_v2.py:539-615`) scans the keys from the newest to the
oldest and keeps those the caller may see, until the page or its budget is full.
-/

namespace RapidInbox

def apiKeyScanMinRows : Nat := 1000
def apiKeyScanRowsPerVisibleItem : Nat := 20
def apiKeyScanMaxRows : Nat := 5000
def apiKeyScanBatchMaxRows : Nat := 900

/-- The tables with the column `api_keys.created_at`, which is never changed; `id` is the primary key. -/
structure KeyDirectory where
  db : AuthDb
  createdAt : Nat → Text
  ids : (db.apiKeys.map ApiKeyRow.id).Nodup

/-- A row of the answer. -/
structure ListedApiKey where
  id : Nat
  publicId : Text
  name : Text
  kind : ApiKeyKind
  keyPrefix : Text
  status : ApiKeyStatus
  revokedAt : Option Timestamp
  createdAt : Text
  policy : KeyPolicy
  deriving DecidableEq, Repr

/-- `_ApiKeyScanPage` -/
structure ApiKeyScanPage where
  items : List ListedApiKey
  continuationPosition : Option (Text × Nat)
  hasMore : Bool
  scannedRows : Nat
  deriving DecidableEq, Repr

namespace KeyDirectory

variable (E : StdText) (dir : KeyDirectory) (principal : PermissionContext) (wanted : Nat)

/-- `_hydrate_api_key_rows`, for one row. -/
def hydrateApiKeyRow (row : ApiKeyRow) : ListedApiKey where
  id := row.id
  publicId := row.publicId
  name := row.name
  kind := row.kind
  keyPrefix := row.keyPrefix
  status := row.status
  revokedAt := row.revokedAt
  createdAt := dir.createdAt row.id
  policy :=
    { scopes := (ownedBy row.id dir.db.apiKeyScopes).insertionSort (· ≤ ·)
      domainIds := (ownedBy row.id dir.db.apiKeyDomainGrants).insertionSort (· ≤ ·)
      mailboxPatterns := (ownedBy row.id dir.db.apiKeyMailboxGrants).insertionSort (· ≤ ·)
      domainGrantMode := row.domainGrantMode
      rateLimitPerMin := row.rateLimitPerMin
      allowedIpCidrs := decodeAllowedIpCidrs row.allowedIpCidrs
      expiresAt := row.expiresAt
      allowHeader := row.allowHeader
      allowQuery := row.allowQuery }

/-- `_api_key_within_principal`, of a row. -/
def isVisible (row : ApiKeyRow) : Bool :=
  apiKeyIsWithinPrincipal E principal (dir.hydrateApiKeyRow row).policy

/-- `(created_at, id)` -/
def positionOf (row : ApiKeyRow) : Text × Nat := (dir.createdAt row.id, row.id)

/-- `created_at < ? OR (created_at = ? AND id < ?)`, where there is a position. -/
def isBehind (position : Option (Text × Nat)) (row : ApiKeyRow) : Bool :=
  position.all fun p => dir.createdAt row.id < p.1 || (dir.createdAt row.id = p.1 && row.id < p.2)

/-- `ORDER BY created_at DESC, id DESC` -/
def listedBefore (a b : ApiKeyRow) : Prop :=
  dir.createdAt b.id < dir.createdAt a.id ∨
    dir.createdAt b.id = dir.createdAt a.id ∧ b.id ≤ a.id

instance (a b : ApiKeyRow) : Decidable (dir.listedBefore a b) := inferInstanceAs (Decidable (_ ∨ _))

/-- The query of a batch. -/
def fetchRows (position : Option (Text × Nat)) (limit : Nat) : List ApiKeyRow :=
  ((dir.db.apiKeys.filter (dir.isBehind position)).insertionSort dir.listedBefore).take limit

/-- The variables of the loops. -/
structure ScanState where
  visible : List ListedApiKey
  scanPosition : Option (Text × Nat)
  scannedRows : Nat

/-- The loop over the rows of a batch of which `fetched` rows were read; a page is returned from its
    middle. -/
def processRows (fetched : Nat) : Nat → List ApiKeyRow → ScanState → ApiKeyScanPage ⊕ ScanState
  | _, [], s => .inr s
  | rowIndex, row :: rows, s =>
    let scanPosition := some (dir.positionOf row)
    let scannedRows := s.scannedRows + 1
    if dir.isVisible E principal row then
      let visible := s.visible ++ [dir.hydrateApiKeyRow row]
      if wanted ≤ visible.length then
        let hasMore := decide (rowIndex + 1 < fetched)
        .inl ⟨visible, if hasMore then scanPosition else none, hasMore, scannedRows⟩
      else processRows fetched (rowIndex + 1) rows ⟨visible, scanPosition, scannedRows⟩
    else processRows fetched (rowIndex + 1) rows ⟨s.visible, scanPosition, scannedRows⟩

def scanBudget : Nat :=
  min apiKeyScanMaxRows (max apiKeyScanMinRows (wanted * apiKeyScanRowsPerVisibleItem))

def batchSize : Nat := max 128 (min apiKeyScanBatchMaxRows (wanted * 4))

/-- The page when the loop has ended. -/
def budgetPage (s : ScanState) : ApiKeyScanPage :=
  ⟨s.visible, s.scanPosition, s.scanPosition.isSome, s.scannedRows⟩

/-- The loop over the batches.  A round that does not return scans at least one row, so that there are
    no more rounds than rows in the budget. -/
def scanBatches : Nat → ScanState → ApiKeyScanPage
  | 0, s => budgetPage s
  | rounds + 1, s =>
    if s.visible.length < wanted ∧ s.scannedRows < scanBudget wanted then
      let rowsToProcess := min (batchSize wanted) (scanBudget wanted - s.scannedRows)
      let rows := dir.fetchRows s.scanPosition (rowsToProcess + 1)
      if rows = [] then ⟨s.visible, none, false, s.scannedRows⟩
      else
        match dir.processRows E principal wanted rows.length 0 (rows.take rowsToProcess) s with
        | .inl page => page
        | .inr s =>
          if rows.length ≤ rowsToProcess then ⟨s.visible, none, false, s.scannedRows⟩
          else scanBatches rounds s
    else budgetPage s

/-- `_list_api_keys_keyset_sync` -/
def listApiKeysKeyset (position : Option (Text × Nat)) : Except String ApiKeyScanPage :=
  if wanted < 1 then .error "wanted must be positive"
  else .ok (dir.scanBatches E principal wanted (scanBudget wanted) ⟨[], position, 0⟩)

/-- Pages of these sizes, each from where the one before it ended, until there is no more. -/
def followPages (position : Option (Text × Nat)) : List Nat → Except String (List ApiKeyScanPage)
  | [] => .ok []
  | wanted :: sizes => do
      let page ← dir.listApiKeysKeyset E principal wanted position
      if page.hasMore then return page :: (← followPages page.continuationPosition sizes)
      else return [page]

end KeyDirectory
end RapidInbox
