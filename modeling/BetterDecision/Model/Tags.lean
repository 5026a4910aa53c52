import BetterDecision.Lib.Locks
import BetterDecision.Lib.Runs
import BetterDecision.Model.Ledger

/-!
# Tags, and the dictionary the organisations share

`create_tag`, `set_transaction_tags`, `rename_tag`, `delete_tag`, and the two routes that
write the `share_tag_data` row. Each is one transaction, one event a statement. A plain
read sees the snapshot fixed at `begin`; a locking read or a write sees the committed
row, and waits while another transaction has it locked. What a transaction has written
is kept with it, table by table, until it commits.

`tag_dictionary` and its contributors go by the normalized name, which is unique and
never changes; the org's `share_tag_data` row keeps its id, since an ORM write goes by
it. The names of one call are distinct, so its own writes do not bear on its plain
reads. A request over its budget of new tags is one that fails. The display name of a
tag and the tags of the transaction itself are left out: nothing here reads them.
-/

namespace BetterDecision

inductive TagError
  | validation (detail : String)
  | conflict (detail : String)
  | notFound (resource : String)
  /-- A unique key is taken. -/
  | integrity
  /-- The row an ORM write names is gone. -/
  | staleData
  | crashed
  deriving DecidableEq, Repr

/-! ## Names -/

def tagNameMaxLength : Nat := 32
def maxTagsPerTransaction : Nat := 5
def dictionaryNameMaxLength : Nat := 16
def dictionaryMaxHyphenGroups : Nat := 1

/-- `_WHITESPACE_RUN_RE.sub(" ", …)`. -/
def collapseSpace : List Char → List Char
  | [] => []
  | c :: cs =>
    if isSpace c then if cs.head?.any isSpace then collapseSpace cs else ' ' :: collapseSpace cs
    else c :: collapseSpace cs

/-- `_ALLOWED_CHARS_RE`. -/
def isTagChar (c : Char) : Bool := c.isLower || c.isDigit || c == ' ' || c == '-'

/-- `lower` is `str.lower`. -/
def normalizeTagName (lower : String → String) (raw : String) : Except TagError String := do
  let cleaned := String.ofList (collapseSpace (lower (strip raw)).toList)
  refuse (cleaned = "") (.validation "Tag name is required")
  refuse (cleaned.length > tagNameMaxLength) (.validation s!"Tag name must be {tagNameMaxLength} characters or fewer")
  refuse (¬ cleaned.toList.all isTagChar)
    (.validation "Tag name may only contain lowercase letters, digits, spaces, and hyphens")
  .ok cleaned

/-- The first of each name. -/
def dedupe (names : List String) : List String :=
  names.foldl (fun seen n => if n ∈ seen then seen else seen ++ [n]) []

def isDictionaryEligible (nameNormalized : String) : Bool :=
  decide (nameNormalized.length ≤ dictionaryNameMaxLength) &&
    decide (nameNormalized.toList.count '-' ≤ dictionaryMaxHyphenGroups)

/-! ## The tables -/

structure Tag where
  orgId : Nat
  nameNormalized : String
  deriving DecidableEq, Repr

structure TagDictionary where
  contributorOrgCount : Int
  usageCount : Int
  deriving DecidableEq, Repr

structure TagDictionaryContributor where
  dictionaryTag : String
  contributorOrgId : Nat
  deriving DecidableEq, Repr

structure ShareSetting where
  id : Nat
  value : String
  deriving DecidableEq, Repr

structure TagDb where
  tags : Table Tag := .empty
  dictionary : String → Option TagDictionary := fun _ => none
  contributors : List TagDictionaryContributor := []
  settings : Nat → Option ShareSetting := fun _ => none
  nextSettingId : Nat := 1

def shareTagDataValueEnabled (value : Option String) : Bool := value == some "true"

def isShareTagDataEnabled (db : TagDb) (orgId : Nat) : Bool :=
  shareTagDataValueEnabled ((db.settings orgId).map (·.value))

def hasTag (db : TagDb) (orgId : Nat) (nameNormalized : String) : Bool :=
  db.tags.rows.any (fun p => p.2 == { orgId, nameNormalized })

/-! ## What a transaction writes -/

inductive TagWrite
  | rename (id : Nat) (nameNormalized : String)
  | delete (id : Nat)
  deriving DecidableEq, Repr

def TagWrite.row : TagWrite → Nat
  | .rename id _ => id
  | .delete id => id

inductive DictionaryWrite
  | insert
  /-- `SET contributor_org_count = …, usage_count = …`, the values computed by the caller. -/
  | set (row : TagDictionary)
  /-- `SET contributor_org_count = contributor_org_count - 1, …`. -/
  | subtract
  deriving DecidableEq, Repr

inductive SettingWrite
  | insert (value : String)
  | update (id : Nat) (value : String)
  | delete (id : Nat)
  deriving DecidableEq, Repr

/-- It leaves the org not sharing. -/
def SettingWrite.stops : SettingWrite → Bool
  | .insert value => !shareTagDataValueEnabled (some value)
  | .update _ value => !shareTagDataValueEnabled (some value)
  | .delete _ => true

def TagDictionary.zero : TagDictionary := { contributorOrgCount := 0, usageCount := 0 }

/-- Both counts moved. -/
def TagDictionary.shift (row : TagDictionary) (d : Int) : TagDictionary :=
  { contributorOrgCount := row.contributorOrgCount + d, usageCount := row.usageCount + d }

/-- An update of a row that is not there matches nothing. -/
def DictionaryWrite.apply (row : Option TagDictionary) : DictionaryWrite → Option TagDictionary
  | .insert => some TagDictionary.zero
  | .set new => row.map (fun _ => new)
  | .subtract => row.map (·.shift (-1))

/-- The rows written and not committed, for one org. Tags and contributors by name. -/
structure TagWrites where
  inserted : List String := []
  tag : Option TagWrite := none
  dictionary : List (String × DictionaryWrite) := []
  added : List String := []
  removed : List String := []
  setting : Option SettingWrite := none

/-- A dictionary row as the transaction sees it when it writes it. -/
def TagWrites.dictionaryRow (ws : TagWrites) (db : TagDb) (name : String) : Option TagDictionary :=
  ((ws.dictionary.filter (·.1 == name)).map Prod.snd).foldl DictionaryWrite.apply (db.dictionary name)

def TagWrites.applyTags (ws : TagWrites) (orgId : Nat) (tags : Table Tag) : Table Tag :=
  let tags := ws.inserted.foldl (fun tags nameNormalized => tags.insert { orgId, nameNormalized }) tags
  match ws.tag with
  | some (.rename id nameNormalized) => tags.modify id (fun tag => { tag with nameNormalized })
  | some (.delete id) => tags.remove (· == id)
  | none => tags

def TagWrites.applyContributors (ws : TagWrites) (orgId : Nat) (contributors : List TagDictionaryContributor) :
    List TagDictionaryContributor :=
  contributors.filter (fun c => !(c.contributorOrgId == orgId && decide (c.dictionaryTag ∈ ws.removed))) ++
    ws.added.map (fun dictionaryTag => { dictionaryTag, contributorOrgId := orgId })

def TagWrites.applySetting (ws : TagWrites) (db : TagDb) (orgId : Nat) : Option ShareSetting :=
  match ws.setting with
  | some (.insert value) => some { id := db.nextSettingId, value }
  | some (.update id value) => some { id, value }
  | some (.delete _) => none
  | none => db.settings orgId

/-- What a commit makes of the tables. -/
def TagWrites.apply (ws : TagWrites) (orgId : Nat) (db : TagDb) : TagDb :=
  { tags := ws.applyTags orgId db.tags
    dictionary := ws.dictionaryRow db
    contributors := ws.applyContributors orgId db.contributors
    settings := fun org => if org = orgId then ws.applySetting db orgId else db.settings org
    nextSettingId := db.nextSettingId + 1 }

/-! ## Transactions -/

inductive TagCall
  | createTag (orgId : Nat) (name : String)
  /-- `transactionFound`: the transaction is one of the org's. -/
  | setTransactionTags (orgId : Nat) (transactionFound : Bool) (tagNames : List String)
  | renameTag (orgId tagId : Nat) (newName : String)
  | deleteTag (orgId tagId : Nat)
  | putSetting (orgId : Nat) (value : String)
  | deleteSetting (orgId : Nat)
  deriving DecidableEq, Repr

def TagCall.orgId : TagCall → Nat
  | .createTag orgId _ => orgId
  | .setTransactionTags orgId _ _ => orgId
  | .renameTag orgId _ _ => orgId
  | .deleteTag orgId _ => orgId
  | .putSetting orgId _ => orgId
  | .deleteSetting orgId => orgId

/-- The statement a transaction comes to next. -/
inductive TagPhase
  | begun
  /-- The select of the tag of the first of these names, and on to the others. -/
  | resolving (names : List String)
  /-- The insert of a tag. -/
  | inserting (name : String) (rest : List String)
  /-- `is_share_tag_data_enabled`. -/
  | asking (name : String) (rest : List String)
  /-- `_share_tag_data_still_enabled`. -/
  | locking (name : String) (rest : List String)
  /-- `_get_or_create_dictionary_row`: the select, the insert, and the select for update. -/
  | selecting (name : String) (rest : List String)
  | creating (name : String) (rest : List String)
  | refetching (name : String) (rest : List String)
  /-- `_try_insert_contributor`: the select, and the insert. `row` is as it was read. -/
  | checking (name : String) (row : TagDictionary) (rest : List String)
  | contributing (name : String) (row : TagDictionary) (rest : List String)
  /-- The update of the counts. -/
  | counting (name : String) (row : TagDictionary) (rest : List String)
  | writingSetting (write : SettingWrite)
  /-- `withdraw_dictionary_contributions`: the select for update, then an update for each
  of `rest` and the delete of `rows`. `write` is what the caller writes after it. -/
  | withdrawing (names : Option (List String)) (write : Option TagWrite)
  | subtracting (rows rest : List String) (write : Option TagWrite)
  | flushing (write : TagWrite)
  | ready
  | done (outcome : Except TagError Unit)

inductive TagLock
  | tag (orgId : Nat) (name : String)
  | dictionary (name : String)
  | contributor (name : String) (orgId : Nat)
  | setting (orgId : Nat)
  deriving DecidableEq, Repr

structure TagTx where
  call : TagCall
  snapshot : TagDb
  locks : List TagLock := []
  writes : TagWrites := {}
  phase : TagPhase := .begun

structure TagWorld where
  /-- The committed rows. -/
  db : TagDb
  txs : Table TagTx := .empty

inductive TagEvent
  | begin (call : TagCall)
  /-- The next statement of a transaction. -/
  | next (tx : Nat)
  | commit (tx : Nat)
  /-- The transaction is rolled back. -/
  | fail (tx : Nat)
  deriving DecidableEq, Repr

/-! ## Statements -/

def TagTx.goto (tx : TagTx) (phase : TagPhase) : TagTx := { tx with phase }

/-- The transaction is over: nothing is locked, nothing is pending. -/
def TagTx.finish (tx : TagTx) (outcome : Except TagError Unit) : TagTx :=
  { tx with locks := [], writes := {}, phase := .done outcome }

def TagTx.lock (tx : TagTx) (locks : List TagLock) : TagTx := { tx with locks := locks ++ tx.locks }

def TagTx.write (tx : TagTx) (writes : TagWrites) : TagTx := { tx with writes }

def TagWorld.Waits (w : TagWorld) (id : Nat) (kind : TagLock → Prop) : Prop := w.txs.HeldBy TagTx.locks id kind

instance TagWorld.decidableWaits (w : TagWorld) (id : Nat) (kind : TagLock → Prop) [DecidablePred kind] : Decidable (w.Waits id kind) :=
  inferInstanceAs (Decidable (w.txs.HeldBy TagTx.locks id kind))

/-- The checks and reads a call begins with. -/
def beginTag (lower : String → String) (db : TagDb) : TagCall → Except TagError TagPhase
  | .createTag orgId name => do
    let name ← normalizeTagName lower name
    refuse (hasTag db orgId name) (.conflict s!"Tag '{name}' already exists")
    .ok (.inserting name [])
  | .setTransactionTags _ transactionFound tagNames => do
    refuse (transactionFound = false) (.notFound "transaction")
    let names ← tagNames.mapM (normalizeTagName lower)
    let names := dedupe names
    refuse (names.length > maxTagsPerTransaction)
      (.validation s!"A transaction may have at most {maxTagsPerTransaction} tags")
    .ok (.resolving names)
  | .renameTag orgId tagId newName => do
    let name ← normalizeTagName lower newName
    let tag ← found ((db.tags.get? tagId).filter (fun t => t.orgId == orgId)) (.notFound "tag")
    if tag.nameNormalized = name then .ok .ready
    else do
      refuse (hasTag db orgId name) (.conflict s!"Tag '{name}' already exists")
      .ok (.withdrawing (some [tag.nameNormalized]) (some (.rename tagId name)))
  | .deleteTag orgId tagId => do
    let tag ← found ((db.tags.get? tagId).filter (fun t => t.orgId == orgId)) (.notFound "tag")
    .ok (.withdrawing (some [tag.nameNormalized]) (some (.delete tagId)))
  | .putSetting orgId value =>
    match db.settings orgId with
    | some setting =>
      if setting.value = value then
        -- nothing changed, so nothing is written
        if shareTagDataValueEnabled (some value) then .ok .ready else .ok (.withdrawing none none)
      else .ok (.writingSetting (.update setting.id value))
    | none => .ok (.writingSetting (.insert value))
  | .deleteSetting orgId =>
    match db.settings orgId with
    | some setting => .ok (.writingSetting (.delete setting.id))
    | none => .error (.notFound "Setting not found")

/-- The insert of a tag: the unique key may be taken. -/
def insertTag (w : TagWorld) (id : Nat) (tx : TagTx) (name : String) (rest : List String) : Except TagError TagTx := do
  let orgId := tx.call.orgId
  refuse (w.Waits id (· = .tag orgId name)) .crashed
  if hasTag w.db orgId name || tx.writes.inserted.contains name then .ok (tx.finish (.error .integrity))
  else .ok (((tx.lock [.tag orgId name]).write { tx.writes with inserted := tx.writes.inserted ++ [name] }).goto
    (.asking name rest))

/-- The lock on the org's own setting. -/
def lockShare (w : TagWorld) (id : Nat) (tx : TagTx) (name : String) (rest : List String) : Except TagError TagTx := do
  let orgId := tx.call.orgId
  refuse (w.Waits id (· = .setting orgId)) .crashed
  let tx := tx.lock [.setting orgId]
  if isShareTagDataEnabled w.db orgId && isDictionaryEligible name then .ok (tx.goto (.selecting name rest))
  else .ok (tx.goto (.resolving rest))

/-- The insert of a dictionary row, in a savepoint. -/
def insertDictionary (w : TagWorld) (id : Nat) (tx : TagTx) (name : String) (rest : List String) :
    Except TagError TagTx := do
  refuse (w.Waits id (· = .dictionary name)) .crashed
  if (tx.writes.dictionaryRow w.db name).isSome then .ok (tx.goto (.refetching name rest))
  else .ok (((tx.lock [.dictionary name]).write
    { tx.writes with dictionary := tx.writes.dictionary ++ [(name, .insert)] }).goto (.checking name .zero rest))

/-- The select for update of a row that another transaction has just inserted. -/
def refetchDictionary (w : TagWorld) (id : Nat) (tx : TagTx) (name : String) (rest : List String) :
    Except TagError TagTx := do
  refuse (w.Waits id (· = .dictionary name)) .crashed
  match tx.writes.dictionaryRow w.db name with
  | some row => .ok ((tx.lock [.dictionary name]).goto (.checking name row rest))
  | none => .ok (tx.finish (.error .crashed))

/-- The insert of a contributor, in a savepoint. -/
def insertContributor (w : TagWorld) (id : Nat) (tx : TagTx) (name : String) (row : TagDictionary) (rest : List String) :
    Except TagError TagTx := do
  let orgId := tx.call.orgId
  refuse (w.Waits id (· = .contributor name orgId)) .crashed
  if { dictionaryTag := name, contributorOrgId := orgId } ∈ w.db.contributors ∨ name ∈ tx.writes.added then
    .ok (tx.goto (.resolving rest))
  else .ok (((tx.lock [.contributor name orgId]).write { tx.writes with added := tx.writes.added ++ [name] }).goto
    (.counting name row rest))

/-- `contributor_org_count += 1` and `usage_count += 1`, on the row as it was read. -/
def countContributor (w : TagWorld) (id : Nat) (tx : TagTx) (name : String) (row : TagDictionary) (rest : List String) :
    Except TagError TagTx := do
  refuse (w.Waits id (· = .dictionary name)) .crashed
  if (tx.writes.dictionaryRow w.db name).isSome then
    .ok (((tx.lock [.dictionary name]).write
      { tx.writes with dictionary := tx.writes.dictionary ++ [(name, .set (row.shift 1))] }).goto (.resolving rest))
  else .ok (tx.finish (.error .staleData))

/-- The write of the org's `share_tag_data` row, which goes by its id. A concurrent insert
is retried by the route as a new transaction. -/
def writeSetting (w : TagWorld) (id : Nat) (tx : TagTx) (write : SettingWrite) : Except TagError TagTx :=
  let orgId := tx.call.orgId
  let written := (tx.lock [.setting orgId]).write { tx.writes with setting := some write }
  let onward : TagPhase := if write.stops then .withdrawing none none else .ready
  match write with
  | .insert _ => do
    refuse (w.Waits id (· = .setting orgId)) .crashed
    if (w.db.settings orgId).isSome then .ok (tx.finish (.error .integrity)) else .ok (written.goto onward)
  | .update row _ =>
    if (w.db.settings orgId).any (·.id == row) then do
      refuse (w.Waits id (· = .setting orgId)) .crashed
      .ok (written.goto onward)
    else .ok (tx.finish (.error .staleData))
  | .delete row =>
    if (w.db.settings orgId).any (·.id == row) then do
      refuse (w.Waits id (· = .setting orgId)) .crashed
      .ok (written.goto onward)
    else .ok (tx.goto onward)

/-- The org's contributions of these names. -/
def contributionsOf (db : TagDb) (orgId : Nat) (names : Option (List String)) : List String :=
  (db.contributors.filter (fun c =>
    c.contributorOrgId == orgId && names.all (fun ns => decide (c.dictionaryTag ∈ ns)))).map (·.dictionaryTag)

/-- The locks a withdrawal waits for: the contributor rows it looks for, and the
dictionary rows if it looks by name. -/
def withdrawalLocks (orgId : Nat) (names : Option (List String)) (rows : List String) : TagLock → Bool
  | .contributor name org => org == orgId && names.all (fun ns => decide (name ∈ ns))
  | .dictionary name => names.isSome && decide (name ∈ rows)
  | _ => false

/-- The select for update of a withdrawal. -/
def selectContributions (w : TagWorld) (id : Nat) (tx : TagTx) (names : Option (List String)) (write : Option TagWrite) :
    Except TagError TagTx := do
  let orgId := tx.call.orgId
  let rows := contributionsOf w.db orgId names
  refuse (w.Waits id (fun k => withdrawalLocks orgId names rows k = true)) .crashed
  let locks := rows.map (fun name => TagLock.contributor name orgId) ++
    if names.isSome then rows.map TagLock.dictionary else []
  .ok ((tx.lock locks).goto (.subtracting rows rows write))

def afterWithdrawal : Option TagWrite → TagPhase
  | some write => .flushing write
  | none => .ready

/-- One update of a withdrawal, or its delete. -/
def withdrawNext (w : TagWorld) (id : Nat) (tx : TagTx) (rows rest : List String) (write : Option TagWrite) :
    Except TagError TagTx :=
  match rest with
  | name :: rest => do
    refuse (w.Waits id (· = .dictionary name)) .crashed
    .ok (((tx.lock [.dictionary name]).write
      { tx.writes with dictionary := tx.writes.dictionary ++ [(name, .subtract)] }).goto (.subtracting rows rest write))
  | [] =>
    .ok ((tx.write { tx.writes with removed := tx.writes.removed ++ rows }).goto (afterWithdrawal write))

/-- The update of a tag, or its delete. -/
def flushTag (w : TagWorld) (id : Nat) (tx : TagTx) (write : TagWrite) : Except TagError TagTx :=
  match w.db.tags.get? write.row, write with
  | some tag, .rename row name => do
    refuse (w.Waits id (fun k => k = .tag tag.orgId tag.nameNormalized ∨ k = .tag tag.orgId name)) .crashed
    if ∃ q ∈ w.db.tags.rows, q.1 ≠ row ∧ q.2 = { orgId := tag.orgId, nameNormalized := name } then
      .ok (tx.finish (.error .integrity))
    else .ok (((tx.lock [.tag tag.orgId tag.nameNormalized, .tag tag.orgId name]).write
      { tx.writes with tag := some write }).goto .ready)
  | some tag, .delete _ => do
    refuse (w.Waits id (· = .tag tag.orgId tag.nameNormalized)) .crashed
    .ok (((tx.lock [.tag tag.orgId tag.nameNormalized]).write { tx.writes with tag := some write }).goto .ready)
  | none, .rename _ _ => .ok (tx.finish (.error .staleData))
  | none, .delete _ => .ok (tx.goto .ready)

/-- The next statement of a transaction. -/
def nextStatement (lower : String → String) (w : TagWorld) (id : Nat) (tx : TagTx) : Except TagError TagTx :=
  let orgId := tx.call.orgId
  match tx.phase with
  | .begun =>
    match beginTag lower tx.snapshot tx.call with
    | .ok phase => .ok (tx.goto phase)
    | .error e => .ok (tx.finish (.error e))
  | .resolving [] => .ok (tx.goto .ready)
  | .resolving (name :: rest) =>
    .ok (tx.goto (if hasTag tx.snapshot orgId name then .resolving rest else .inserting name rest))
  | .inserting name rest => insertTag w id tx name rest
  | .asking name rest =>
    .ok (tx.goto (if isShareTagDataEnabled tx.snapshot orgId then .locking name rest else .resolving rest))
  | .locking name rest => lockShare w id tx name rest
  | .selecting name rest =>
    .ok (tx.goto
      (match tx.snapshot.dictionary name with
      | some row => .checking name row rest
      | none => .creating name rest))
  | .creating name rest => insertDictionary w id tx name rest
  | .refetching name rest => refetchDictionary w id tx name rest
  | .checking name row rest =>
    .ok (tx.goto
      (if { dictionaryTag := name, contributorOrgId := orgId } ∈ tx.snapshot.contributors then .resolving rest
      else .contributing name row rest))
  | .contributing name row rest => insertContributor w id tx name row rest
  | .counting name row rest => countContributor w id tx name row rest
  | .writingSetting write => writeSetting w id tx write
  | .withdrawing names write => selectContributions w id tx names write
  | .subtracting rows rest write => withdrawNext w id tx rows rest write
  | .flushing write => flushTag w id tx write
  | .ready => .error .crashed
  | .done _ => .error .crashed

def TagWorld.put (w : TagWorld) (id : Nat) (tx : TagTx) : TagWorld :=
  { w with txs := w.txs.modify id (fun _ => tx) }

/-- One step. An event whose transaction is elsewhere, or has to wait, is refused. -/
def tagStep (lower : String → String) (w : TagWorld) : TagEvent → Except TagError TagWorld
  | .begin call => .ok { w with txs := w.txs.insert { call, snapshot := w.db } }
  | .next id => do
    let tx ← found (w.txs.get? id) .crashed
    let tx ← nextStatement lower w id tx
    .ok (w.put id tx)
  | .commit id => do
    let tx ← found (w.txs.get? id) .crashed
    match tx.phase with
    | .ready => .ok { (w.put id (tx.finish (.ok ()))) with db := tx.writes.apply tx.call.orgId w.db }
    | _ => .error .crashed
  | .fail id => do
    let tx ← found (w.txs.get? id) .crashed
    match tx.phase with
    | .done _ => .error .crashed
    | _ => .ok (w.put id (tx.finish (.error .crashed)))

end BetterDecision
