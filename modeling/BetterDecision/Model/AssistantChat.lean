import BetterDecision.Lib.Runs
import BetterDecision.Lib.Table
import BetterDecision.Model.AgentActions
import BetterDecision.Model.Db
import BetterDecision.Model.JsText
import Mathlib.Data.List.Sort

/-!
# The assistant's conversation

`lib/agent/session.ts`: the conversation a tab holds and mirrors to its `sessionStorage`; the
writes that `AssistantChat.tsx` makes through it while a turn runs; and `outgoing` of
`lib/agent/chat.ts`, what of it is sent with the next turn.

The code between two awaits runs alone, so a call of the store is one step, and the calls of any
number of writers come in any order. A reload starts the module anew: the writers are gone, and
of the store there is left what the mirror holds. Any access to the storage may throw.
-/

namespace BetterDecision

/-! ## Entries -/

/-- A staged change, as far as the browser looks at it. -/
structure StagedAction where
  actionId : String
  summary : JsString
  /-- Its lists and its context have the shapes that `validEntry` asks for. -/
  wellFormed : Bool := true
  deriving DecidableEq, Repr

/-- What became of a staged change. -/
inductive CardOutcome
  | done
  | cancelled
  | expired
  | failed
  | decided
  deriving DecidableEq, Repr

inductive ChatEntry
  | user (id : Nat) (text : JsString) (failed : Bool)
  | assistant (id : Nat) (text : JsString)
  | tool (id : Nat) (name : String) (ok : Option Bool) (rows : Option Int) (code : Option String)
  | preview (id : Nat) (tool : String) (action : StagedAction) (outcome : Option CardOutcome)
  | error (id : Nat) (code : String)
  deriving DecidableEq, Repr

def ChatEntry.id : ChatEntry → Nat
  | .user id _ _ | .assistant id _ | .tool id _ _ _ _ | .preview id _ _ _ | .error id _ => id

/-- `validEntry`, of an entry the store wrote. -/
def validEntry : ChatEntry → Bool
  | .preview _ _ action _ => action.wellFormed
  | _ => true

/-- The staged change of a card. -/
def ChatEntry.actionId : ChatEntry → Option String
  | .preview _ _ action _ => some action.actionId
  | _ => none

/-! ## The store -/

/-- The storage accesses of a call that go through. -/
structure StorageAccess where
  reads : Bool := true
  writes : Bool := true
  removes : Bool := true

structure Snapshot where
  owner : Option String := none
  entries : List ChatEntry := []
  lastMessageAt : Option Int := none
  deriving DecidableEq, Repr

/-- What `sessionStorage` holds under the key. -/
structure StoredSession where
  owner : String
  lastMessageAt : Option Int
  seq : Nat
  entries : List ChatEntry
  deriving DecidableEq, Repr

/-- The variables of the module, and the storage of the tab. -/
structure AssistantTab where
  store : Snapshot := {}
  gen : Nat := 0
  seq : Nat := 0
  mirror : Option StoredSession := none
  deriving DecidableEq, Repr

/-- In milliseconds. -/
def idleMs : Int := 2 * 60 * 60 * 1000

/-- `KEEP`. -/
def keptEntries : Nat := 100

/-- Another owner sees nothing. -/
def getSnapshot (tab : AssistantTab) (owner : Option String) : Snapshot :=
  if owner.isSome ∧ tab.store.owner = owner then tab.store else {}

def removeKey (access : StorageAccess) (tab : AssistantTab) : AssistantTab :=
  if access.removes then { tab with mirror := none } else tab

def persist (access : StorageAccess) (tab : AssistantTab) : AssistantTab :=
  match tab.store.owner with
  | none => tab
  | some owner =>
    if access.writes then
      { tab with
        mirror := some
          { owner, lastMessageAt := tab.store.lastMessageAt, seq := tab.seq
            entries := tab.store.entries.drop (tab.store.entries.length - keptEntries) } }
    else tab

def readStored (access : StorageAccess) (tab : AssistantTab) : Option StoredSession :=
  if access.reads then tab.mirror.map (fun s => { s with entries := s.entries.filter validEntry }) else none

/-- The one owner switch, and the one read of the storage. -/
def adoptOwner (access : StorageAccess) (now : Int) (owner : String) (tab : AssistantTab) : AssistantTab :=
  if tab.store.owner = some owner then tab
  else
    let gen := if tab.store.owner.isSome then tab.gen + 1 else tab.gen
    let adopted : AssistantTab := { tab with gen, store := { owner := some owner } }
    match readStored access tab with
    | none => removeKey access adopted
    | some s =>
      if s.owner ≠ owner ∨ (∃ sent ∈ s.lastMessageAt, idleMs < now - sent) then removeKey access adopted
      else
        { adopted with
          store := { owner := some owner, entries := s.entries, lastMessageAt := s.lastMessageAt }
          seq := max tab.seq s.seq }

/-- Sign-out: the store has no owner, and drops every write. -/
def clearAssistantSession (access : StorageAccess) (tab : AssistantTab) : AssistantTab :=
  { (removeKey access { tab with store := {} }) with gen := tab.gen + 1 }

/-- New chat, and idle expiry. -/
def resetConversation (access : StorageAccess) (tab : AssistantTab) : AssistantTab :=
  { (removeKey access { tab with store := { owner := tab.store.owner } }) with gen := tab.gen + 1 }

/-- What a write makes of the entries: nothing where they are returned as they were. It may draw ids. -/
abbrev EntryUpdate := List ChatEntry → Nat → Option (List ChatEntry) × Nat

/-- A write of generation `g` reaches the entries. -/
def AssistantTab.Takes (tab : AssistantTab) (g : Nat) : Prop := tab.store.owner ≠ none ∧ g = tab.gen

instance decidableTakes (tab : AssistantTab) (g : Nat) : Decidable (tab.Takes g) :=
  inferInstanceAs (Decidable (_ ∧ _))

/-- Every entry write. -/
def updateEntries (access : StorageAccess) (now : Int) (g : Nat) (fn : EntryUpdate) (userMessage : Bool)
    (tab : AssistantTab) : AssistantTab :=
  if tab.Takes g then
    let (next, seq) := fn tab.store.entries tab.seq
    if next = none ∧ userMessage = false then { tab with seq }
    else
      persist access
        { tab with
          seq
          store :=
            { tab.store with
              entries := next.getD tab.store.entries
              lastMessageAt :=
                if userMessage ∨ tab.store.lastMessageAt = none then some now else tab.store.lastMessageAt } }
  else tab

/-! ## The writes of a turn -/

/-- The lookup has not been answered. -/
def ChatEntry.isOpenTool (name : String) : ChatEntry → Bool
  | .tool _ n none _ _ => n == name
  | _ => false

/-- An entry that goes when the next message is sent. -/
def ChatEntry.isSpent : ChatEntry → Bool
  | .user _ _ failed => failed
  | .error _ _ => true
  | _ => false

/-- The last entry that passes, replaced. -/
def replaceLast (p : ChatEntry → Bool) (f : ChatEntry → ChatEntry) : List ChatEntry → Option (List ChatEntry)
  | [] => none
  | e :: es =>
    match replaceLast p f es with
    | some es => some (e :: es)
    | none => if p e then some (f e :: es) else none

/-- The answer to a lookup. -/
def ChatEntry.answered (ok : Bool) (rows : Option Int) (code : Option String) : ChatEntry → ChatEntry
  | .tool id name _ _ _ => .tool id name (some ok) rows code
  | e => e

/-- A lookup the turn never answered did not finish. -/
def ChatEntry.stopped : ChatEntry → ChatEntry
  | .tool id name none rows _ => .tool id name (some false) rows (some "stopped")
  | e => e

/-- The user's message did not get through. -/
def ChatEntry.failedAs (id : Nat) (text : JsString) (e : ChatEntry) : ChatEntry :=
  if e.id = id then .user id text true else e

def ChatEntry.swapped (id : Nat) (action : StagedAction) : ChatEntry → ChatEntry
  | .preview i name old outcome => .preview i name (if i = id then action else old) outcome
  | e => e

def ChatEntry.settled (id : Nat) (outcome : CardOutcome) : ChatEntry → ChatEntry
  | .preview i name action old => .preview i name action (if i = id then some outcome else old)
  | e => e

/-- The calls of `updateEntries` in `AssistantChat.tsx`. -/
inductive ChatWrite
  | send (text : JsString)
  | message (text : JsString)
  | toolCall (name : String)
  | toolResult (name : String) (ok : Bool) (rows : Option Int) (code : Option String)
  | preview (tool : String) (action : StagedAction)
  | turnEnded
  /-- Stopped before anything came. -/
  | notSent (id : Nat) (text : JsString)
  /-- Ended by an error, before anything came or later. -/
  | failed (userEntry : Option (Nat × JsString)) (code : String)
  | swap (id : Nat) (action : StagedAction)
  | decide (id : Nat) (outcome : CardOutcome)

/-- The id of the new entry is drawn before the call. -/
def ChatWrite.drawsFirst : ChatWrite → Bool
  | .send _ | .message _ | .toolCall _ => true
  | _ => false

def ChatWrite.isUserMessage : ChatWrite → Bool
  | .send _ => true
  | _ => false

/-- The function passed. An id drawn before the call is the last one drawn. -/
def ChatWrite.update : ChatWrite → EntryUpdate
  | .send text, prev, seq => (some (prev.filter (fun e => !e.isSpent) ++ [.user seq text false]), seq)
  | .message text, prev, seq => (some (prev ++ [.assistant seq text]), seq)
  | .toolCall name, prev, seq => (some (prev ++ [.tool seq name none none none]), seq)
  | .toolResult name ok rows code, prev, seq =>
    (replaceLast (ChatEntry.isOpenTool name) (ChatEntry.answered ok rows code) prev, seq)
  | .preview tool action, prev, seq =>
    -- the staged write takes the place of its own line, and a card that is held is not added twice
    let rest := prev.filter (fun e => !e.isOpenTool tool)
    if prev.any (fun e => e.actionId == some action.actionId) then (some rest, seq)
    else (some (rest ++ [.preview (seq + 1) tool action none]), seq + 1)
  | .turnEnded, prev, seq => (some (prev.map ChatEntry.stopped), seq)
  | .notSent id text, prev, seq => (some (prev.map (ChatEntry.failedAs id text)), seq)
  | .failed userEntry code, prev, seq =>
    let marked := match userEntry with
      | some (id, text) => prev.map (ChatEntry.failedAs id text)
      | none => prev
    (some (marked ++ [.error (seq + 1) code]), seq + 1)
  | .swap id action, prev, seq => (some (prev.map (ChatEntry.swapped id action)), seq)
  | .decide id outcome, prev, seq => (some (prev.map (ChatEntry.settled id outcome)), seq)

def writeChat (access : StorageAccess) (now : Int) (g : Nat) (w : ChatWrite) (tab : AssistantTab) : AssistantTab :=
  updateEntries access now g w.update w.isUserMessage
    (if w.drawsFirst then { tab with seq := tab.seq + 1 } else tab)

/-! ## The server's word on the cards -/

structure AgentActionRow where
  action : StagedAction
  tool : String
  status : ActionStatus
  createdAt : Int
  /-- Pending, and not past its expiry. -/
  live : Bool
  /-- It would take back another action. -/
  reverts : Bool := false
  deriving DecidableEq

/-- The server decides every label; a live row has none. -/
def cardLabel : Option AgentActionRow → Option CardOutcome
  | none => some .decided
  | some row =>
    if row.live then none
    else match row.status with
      | .done => some .done
      | .cancelled => some .cancelled
      | .pending => some .expired
      | _ => some .decided

/-- `new Map(..)`: of two rows with one id the later one. -/
def rowOf (rows : List AgentActionRow) (actionId : String) : Option AgentActionRow :=
  (rows.filter (fun r => r.action.actionId == actionId)).getLast?

/-- The label an undecided card gets, if the server had it when it was asked. -/
def newLabel (seqAtSend : Nat) (rows : List AgentActionRow) : ChatEntry → Option CardOutcome
  | .preview id _ action none => if seqAtSend < id then none else cardLabel (rowOf rows action.actionId)
  | _ => none

def ChatEntry.relabelled (seqAtSend : Nat) (rows : List AgentActionRow) (e : ChatEntry) : ChatEntry :=
  match e, newLabel seqAtSend rows e with
  | .preview id name action _, some outcome => .preview id name action (some outcome)
  | e, _ => e

/-- The live rows no card stands for, oldest first. -/
def missingRows (rows : List AgentActionRow) (entries : List ChatEntry) : List AgentActionRow :=
  (rows.filter (fun r => r.live && !r.reverts && !(entries.any (fun e => e.actionId == some r.action.actionId)))).insertionSort
    (fun a b => a.createdAt ≤ b.createdAt)

/-- The cards of rows, under the ids drawn for them. -/
def cardsOf : Nat → List AgentActionRow → List ChatEntry
  | _, [] => []
  | seq, r :: rs => .preview (seq + 1) r.tool r.action none :: cardsOf (seq + 1) rs

def mergedActions (seqAtSend : Nat) (rows : List AgentActionRow) : EntryUpdate := fun prev seq =>
  let next := prev.map (ChatEntry.relabelled seqAtSend rows)
  let added := missingRows rows next
  if prev.any (fun e => (newLabel seqAtSend rows e).isSome) || !added.isEmpty then
    (some (next ++ cardsOf seq added), seq + added.length)
  else (none, seq)

def mergeServerActions (access : StorageAccess) (now : Int) (g seqAtSend : Nat) (rows : List AgentActionRow)
    (tab : AssistantTab) : AssistantTab :=
  updateEntries access now g (mergedActions seqAtSend rows) false tab

/-! ## The tab -/

/-- A writer, and beside the generation it captured whose conversation it began in. -/
structure ChatWriter where
  gen : Nat
  owner : Option String
  ended : Nat

/-- An entry that came into the store, for whom, and whose writer put it there. -/
structure ChatRecord where
  entry : ChatEntry
  owner : Option String
  startedWith : Option String

structure AssistantWorld where
  tab : AssistantTab := {}
  writers : Table ChatWriter := .empty
  /-- The sign-outs, new chats and owner switches since the page was loaded. -/
  ended : Nat := 0
  log : List ChatRecord := []

inductive AssistantEvent
  | adopt (access : StorageAccess) (now : Int) (owner : String)
  | clear (access : StorageAccess)
  | reset (access : StorageAccess)
  /-- A turn, a card or a request for the rows captures `generation()`. -/
  | start
  | write (access : StorageAccess) (now : Int) (writer : Nat) (w : ChatWrite)
  | merge (access : StorageAccess) (now : Int) (writer seqAtSend : Nat) (rows : List AgentActionRow)
  | reload

/-- The store after a write, and a record of the entries that were not in it before. -/
def AssistantWorld.wrote (w : AssistantWorld) (writer : ChatWriter) (tab : AssistantTab) : AssistantWorld :=
  { w with
    tab
    log := w.log ++ (tab.store.entries.filter (fun e => !w.tab.store.entries.contains e)).map (fun entry =>
      { entry, owner := tab.store.owner, startedWith := writer.owner }) }

def assistantStep (w : AssistantWorld) : AssistantEvent → Result AssistantWorld
  | .adopt access now owner =>
    .ok
      { w with
        tab := adoptOwner access now owner w.tab
        ended := if w.tab.store.owner.isSome ∧ w.tab.store.owner ≠ some owner then w.ended + 1 else w.ended }
  | .clear access => .ok { w with tab := clearAssistantSession access w.tab, ended := w.ended + 1 }
  | .reset access => .ok { w with tab := resetConversation access w.tab, ended := w.ended + 1 }
  | .start =>
    .ok { w with writers := w.writers.insert { gen := w.tab.gen, owner := w.tab.store.owner, ended := w.ended } }
  | .write access now writer write => do
    let c ← found (w.writers.get? writer) (.runtime "no writer")
    .ok (w.wrote c (writeChat access now c.gen write w.tab))
  | .merge access now writer seqAtSend rows => do
    let c ← found (w.writers.get? writer) (.runtime "no writer")
    .ok (w.wrote c (mergeServerActions access now c.gen seqAtSend rows w.tab))
  | .reload => .ok { w with tab := { mirror := w.tab.mirror }, writers := .empty, ended := 0 }

/-! ## What is sent -/

inductive ChatRole
  | user
  | assistant
  deriving DecidableEq, Repr

structure OutgoingMessage where
  role : ChatRole
  content : JsString
  deriving DecidableEq, Repr

def maxMessages : Nat := 40

def maxBytes : Nat := 64 * 1024

/-- `TextEncoder`. -/
def utf8Length (s : JsString) : Nat := (Utf8.encode (usvString s)).length

/-- White space and the line ends, as `trim` has them. -/
def isTrimmed (u : UInt16) : Bool :=
  (9 ≤ u && u ≤ 13) || u == 32 || u == 0xA0 || u == 0x1680 || (0x2000 ≤ u && u ≤ 0x200A) || u == 0x2028 ||
    u == 0x2029 || u == 0x202F || u == 0x205F || u == 0x3000 || u == 0xFEFF

/-- `trim` leaves nothing. -/
def isBlankText (s : JsString) : Bool := s.all isTrimmed

def previewNote (summary : JsString) (outcome : Option CardOutcome) : JsString :=
  let state := match outcome with
    | some .done => "The user confirmed it and it was applied."
    | some .cancelled => "The user cancelled it."
    | some .decided => "It was decided elsewhere."
    | some _ => "It was not applied."
    | none => "The user has not decided yet."
  units "Proposed: ".toList ++ summary ++ units ". ".toList ++ units state.toList

def messageOf : ChatEntry → Option OutgoingMessage
  | .user _ text failed => if failed then none else some { role := .user, content := text }
  | .assistant _ text => some { role := .assistant, content := text }
  | .preview _ _ action outcome => some { role := .assistant, content := previewNote action.summary outcome }
  | _ => none

/-- Neighbours of one role are merged. -/
def pushMessage (msgs : List OutgoingMessage) (m : OutgoingMessage) : List OutgoingMessage :=
  match msgs.getLast? with
  | some last =>
    if last.role = m.role then
      msgs.dropLast ++ [{ last with content := last.content ++ units ['\n', '\n'] ++ m.content }]
    else msgs ++ [m]
  | none => [m]

def spokenMessages (entries : List ChatEntry) : List OutgoingMessage :=
  (entries.filterMap messageOf).filter (fun m => !isBlankText m.content)

def totalBytes (msgs : List OutgoingMessage) : Nat := (msgs.map (fun m => utf8Length m.content)).sum

/-- Oldest first, until it fits and starts with the user; the last one stays. -/
def trimMessages : List OutgoingMessage → List OutgoingMessage
  | [] => []
  | [m] => [m]
  | m :: next :: rest =>
    if maxMessages < (m :: next :: rest).length ∨ maxBytes < totalBytes (m :: next :: rest) ∨ m.role ≠ .user then
      trimMessages (next :: rest)
    else m :: next :: rest

def outgoing (entries : List ChatEntry) : List OutgoingMessage :=
  trimMessages ((spokenMessages entries).foldl pushMessage [])

end BetterDecision
