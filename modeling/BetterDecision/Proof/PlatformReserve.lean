import BetterDecision.Model.PlatformReserve

/-!
# Spend is accounted for

Every meter row, and the global row, holds exactly what the reservations made on it
come to: the actual usage of a settled one, the reserved amount of any other. What a
step does to the rows it does to the reservations too, key by key (`Charged`).
-/

namespace BetterDecision

/-! ## What a reservation comes to -/

def Reservation.tokensNow (r : Reservation) : Int := (r.actual.map Prod.fst).getD r.handle.tokens

def Reservation.microsNow (r : Reservation) : Int := (r.actual.map Prod.snd).getD r.handle.micros

/-- What the reservation has on a meter row. -/
def Reservation.charge (r : Reservation) (k : CounterKey) : Int :=
  (if k = r.handle.tokensKey then r.tokensNow else 0) + (if k = r.handle.microsKey then r.microsNow else 0)

/-- What it has on a monthly row. -/
def Reservation.spend (r : Reservation) (start : Int) : Int :=
  if start = r.handle.spendStart then r.microsNow else 0

/-- The rows say what the reservations come to. -/
def Charged (w : PlatformWorld) : Prop :=
  (∀ k, counterValue w.db k = w.reservations.total (fun _ r => r.charge k)) ∧
    ∀ start, spendValue w.db start = w.reservations.total (fun _ r => r.spend start)

/-- The three rows a handle names are there. -/
structure HasRows (db : PlatformDb) (h : SettleHandle) : Prop where
  tokens : (rowAt UsageCounter.key db.counters h.tokensKey).isSome
  micros : (rowAt UsageCounter.key db.counters h.microsKey).isSome
  spend : (rowAt PlatformAISpend.periodStart db.spend h.spendStart).isSome

structure PlatformInv (w : PlatformWorld) : Prop where
  counters : Keyed UsageCounter.key w.db.counters
  spend : Keyed PlatformAISpend.periodStart w.db.spend
  charged : Charged w
  rows : ∀ i r, w.reservations.get? i = some r → HasRows w.db r.handle
  /-- The two meters of a handle are two rows. -/
  apart : ∀ i r, w.reservations.get? i = some r → r.handle.tokensKey ≠ r.handle.microsKey
  /-- A handle not done was never settled. -/
  undone : ∀ i r, w.reservations.get? i = some r → r.handle.done = false → r.actual = none

/-! ## Rows -/

section Rows

variable {db db' : PlatformDb} {k : CounterKey} {start n : Int}

theorem isSome_rowAt_rewriteAt {α κ : Type} [DecidableEq κ] {key : α → κ} {f : α → α} (hf : ∀ a, key (f a) = key a)
    (rows : List α) (k k' : κ) : (rowAt key (rewriteAt key rows k f) k').isSome = (rowAt key rows k').isSome := by
  rw [rowAt_rewriteAt hf]
  split <;> simp

theorem key_add (n : Int) (c : UsageCounter) : (c.add n).key = c.key := rfl

theorem periodStart_add (n : Int) (s : PlatformAISpend) : (s.add n).periodStart = s.periodStart := rfl

/-- Adding to a row that is there moves its value, and no other. -/
theorem counterValue_addToCounter (h : (rowAt UsageCounter.key db.counters k).isSome) (k' : CounterKey) :
    counterValue (addToCounter db k n) k' = counterValue db k' + if k' = k then n else 0 := by
  obtain ⟨c, hc⟩ := Option.isSome_iff_exists.mp h
  rw [counterValue, addToCounter, rowAt_rewriteAt (key_add n), counterValue]
  split
  · subst k'
    simp [hc, UsageCounter.add]
  · simp

theorem spendValue_addToSpend (h : (rowAt PlatformAISpend.periodStart db.spend start).isSome) (start' : Int) :
    spendValue (addToSpend db start n) start' = spendValue db start' + if start' = start then n else 0 := by
  obtain ⟨s, hs⟩ := Option.isSome_iff_exists.mp h
  rw [spendValue, addToSpend, rowAt_rewriteAt (periodStart_add n), spendValue]
  split
  · subst start'
    simp [hs, PlatformAISpend.add]
  · simp

@[simp] theorem counterValue_addToSpend : counterValue (addToSpend db start n) k = counterValue db k := rfl

@[simp] theorem spendValue_addToCounter : spendValue (addToCounter db k n) start = spendValue db start := rfl

/-- A zero row that is made changes no value. -/
theorem counterValue_upsertCounter (k' : CounterKey) : counterValue (upsertCounter db k) k' = counterValue db k' := by
  unfold upsertCounter
  split
  · rfl
  · rename_i hnone
    rw [counterValue, rowAt_concat, counterValue]
    rcases hk : rowAt UsageCounter.key db.counters k' with _ | c
    · simp only [Option.none_or]
      split <;> rfl
    · rfl

theorem spendValue_upsertSpend (start' : Int) : spendValue (upsertSpend db start) start' = spendValue db start' := by
  unfold upsertSpend
  split
  · rfl
  · rename_i hnone
    rw [spendValue, rowAt_concat, spendValue]
    rcases hk : rowAt PlatformAISpend.periodStart db.spend start' with _ | c
    · simp only [Option.none_or]
      split <;> rfl
    · rfl

@[simp] theorem spendValue_upsertCounter : spendValue (upsertCounter db k) start = spendValue db start := by
  unfold upsertCounter
  split <;> rfl

@[simp] theorem counterValue_upsertSpend : counterValue (upsertSpend db start) k = counterValue db k := by
  unfold upsertSpend
  split <;> rfl

end Rows

/-! ## The three rows of a reservation -/

/-- Amounts added to the three rows of a handle. -/
def addRows (db : PlatformDb) (h : SettleHandle) (tokens micros : Int) : PlatformDb :=
  addToSpend (addToCounter (addToCounter db h.tokensKey tokens) h.microsKey micros) h.spendStart micros

theorem settleRows_eq (db : PlatformDb) (h : SettleHandle) (tokens micros : Int) :
    settleRows db h tokens micros = addRows db h (tokens - h.tokens) (micros - h.micros) := rfl

section AddRows

variable {db db' : PlatformDb} {h : SettleHandle} {tokens micros : Int}

theorem HasRows.addToCounter (hr : HasRows db h) (k : CounterKey) (n : Int) : HasRows (addToCounter db k n) h :=
  ⟨(isSome_rowAt_rewriteAt (key_add n) ..).trans hr.tokens,
    (isSome_rowAt_rewriteAt (key_add n) ..).trans hr.micros, hr.spend⟩

theorem HasRows.addToSpend (hr : HasRows db h) (start n : Int) : HasRows (addToSpend db start n) h :=
  ⟨hr.tokens, hr.micros, (isSome_rowAt_rewriteAt (periodStart_add n) ..).trans hr.spend⟩

/-- No row goes away. -/
theorem HasRows.addRows (hr : HasRows db h) (h' : SettleHandle) (tokens micros : Int) :
    HasRows (addRows db h' tokens micros) h :=
  ((hr.addToCounter _ _).addToCounter _ _).addToSpend _ _

theorem counterValue_addRows (hr : HasRows db h) (k : CounterKey) :
    counterValue (addRows db h tokens micros) k =
      counterValue db k + ((if k = h.tokensKey then tokens else 0) + (if k = h.microsKey then micros else 0)) := by
  rw [addRows, counterValue_addToSpend, counterValue_addToCounter (hr.addToCounter _ _).micros,
    counterValue_addToCounter hr.tokens, add_assoc]

theorem spendValue_addRows (hr : HasRows db h) (start : Int) :
    spendValue (addRows db h tokens micros) start =
      spendValue db start + if start = h.spendStart then micros else 0 := by
  rw [addRows, spendValue_addToSpend ((hr.addToCounter _ _).addToCounter _ _).spend, spendValue_addToCounter,
    spendValue_addToCounter]

theorem keyed_addRows (hc : Keyed UsageCounter.key db.counters) (hs : Keyed PlatformAISpend.periodStart db.spend)
    (h : SettleHandle) (tokens micros : Int) :
    Keyed UsageCounter.key (addRows db h tokens micros).counters ∧
      Keyed PlatformAISpend.periodStart (addRows db h tokens micros).spend :=
  ⟨(hc.rewriteAt (key_add _) _).rewriteAt (key_add _) _, hs.rewriteAt (periodStart_add _) _⟩

/-- An increment that went through hit a row and stayed within the limit. -/
theorem incrementCounter_eq_some {k : CounterKey} {n limit : Int} (hinc : incrementCounter db k n limit = some db') :
    (rowAt UsageCounter.key db.counters k).isSome ∧ db' = addToCounter db k n ∧ counterValue db k + n ≤ limit := by
  unfold incrementCounter at hinc
  split at hinc
  · rename_i c hc
    split at hinc
    · refine ⟨by rw [hc]; rfl, (Option.some.inj hinc).symm, ?_⟩
      rw [counterValue, hc]
      assumption
    · cases hinc
  · cases hinc

theorem incrementSpend_eq_some {start n ceiling : Int} (hinc : incrementSpend db start n ceiling = some db') :
    (rowAt PlatformAISpend.periodStart db.spend start).isSome ∧ db' = addToSpend db start n ∧
      spendValue db start + n ≤ ceiling := by
  unfold incrementSpend at hinc
  split at hinc
  · rename_i s hs
    split at hinc
    · refine ⟨by rw [hs]; rfl, (Option.some.inj hinc).symm, ?_⟩
      rw [spendValue, hs]
      assumption
    · cases hinc
  · cases hinc

@[simp] theorem handle_tokensKey (r : ReserveRequest) : r.handle.tokensKey = r.tokensKey := rfl

@[simp] theorem handle_microsKey (r : ReserveRequest) : r.handle.microsKey = r.microsKey := rfl

@[simp] theorem handle_spendStart (r : ReserveRequest) : r.handle.spendStart = r.month := rfl

theorem tokensKey_ne_microsKey (r : ReserveRequest) : r.tokensKey ≠ r.microsKey := by
  intro h
  cases congrArg CounterKey.meter h

/-- **A reserve that goes through** adds the reserved amounts to three rows that are there,
and leaves them within their limits. -/
theorem incrementRows_ok {r : ReserveRequest} (hinc : incrementRows db r = .ok db') :
    HasRows db r.handle ∧ db' = addRows db r.handle r.tokens r.micros ∧
      counterValue db' r.tokensKey ≤ r.tokensLimit ∧ counterValue db' r.microsKey ≤ r.microsLimit ∧
      spendValue db' r.month ≤ r.ceilingMicros := by
  obtain ⟨db₁, h1, hinc⟩ := bind_eq_ok.mp hinc
  obtain ⟨db₂, h2, hinc⟩ := bind_eq_ok.mp hinc
  obtain ⟨ht, rfl, hlt⟩ := incrementCounter_eq_some (found_eq_ok.mp h1)
  obtain ⟨hm, rfl, hlm⟩ := incrementCounter_eq_some (found_eq_ok.mp h2)
  obtain ⟨hs, rfl, hls⟩ := incrementSpend_eq_some (found_eq_ok.mp hinc)
  have hne := tokensKey_ne_microsKey r
  have hrows : HasRows db r.handle :=
    ⟨ht, by rwa [addToCounter, isSome_rowAt_rewriteAt (key_add _)] at hm, hs⟩
  refine ⟨hrows, rfl, ?_, ?_, ?_⟩
  · refine (counterValue_addRows hrows r.tokensKey).trans_le ?_
    rw [handle_tokensKey, handle_microsKey, if_pos rfl, if_neg hne, add_zero]
    exact hlt
  · refine (counterValue_addRows hrows r.microsKey).trans_le ?_
    rw [counterValue_addToCounter ht, if_neg hne.symm, add_zero] at hlm
    rw [handle_tokensKey, handle_microsKey, if_neg hne.symm, if_pos rfl, zero_add]
    exact hlm
  · refine (spendValue_addRows hrows r.month).trans_le ?_
    rw [spendValue_addToCounter, spendValue_addToCounter] at hls
    rw [handle_spendStart, if_pos rfl]
    exact hls

end AddRows

/-! ## Upserts -/

section Upserts

variable {db : PlatformDb}

theorem isSome_upsertCounter {k k' : CounterKey} (h : (rowAt UsageCounter.key db.counters k').isSome) :
    (rowAt UsageCounter.key (upsertCounter db k).counters k').isSome := by
  unfold upsertCounter
  split
  · exact h
  · rw [rowAt_concat, Option.isSome_or, h, Bool.true_or]

theorem isSome_upsertSpend {start start' : Int} (h : (rowAt PlatformAISpend.periodStart db.spend start').isSome) :
    (rowAt PlatformAISpend.periodStart (upsertSpend db start).spend start').isSome := by
  unfold upsertSpend
  split
  · exact h
  · rw [rowAt_concat, Option.isSome_or, h, Bool.true_or]

theorem keyed_upsertCounter (h : Keyed UsageCounter.key db.counters) (k : CounterKey) :
    Keyed UsageCounter.key (upsertCounter db k).counters := by
  unfold upsertCounter
  split
  · exact h
  · exact h.concat (rowAt_eq_none.mp ‹_›)

theorem keyed_upsertSpend (h : Keyed PlatformAISpend.periodStart db.spend) (start : Int) :
    Keyed PlatformAISpend.periodStart (upsertSpend db start).spend := by
  unfold upsertSpend
  split
  · exact h
  · exact h.concat (rowAt_eq_none.mp ‹_›)

@[simp] theorem upsertCounter_spend (k : CounterKey) : (upsertCounter db k).spend = db.spend := by
  unfold upsertCounter
  split <;> rfl

@[simp] theorem upsertSpend_counters (start : Int) : (upsertSpend db start).counters = db.counters := by
  unfold upsertSpend
  split <;> rfl

/-- No value differs. -/
def SameValues (db db' : PlatformDb) : Prop :=
  (∀ k, counterValue db' k = counterValue db k) ∧ ∀ start, spendValue db' start = spendValue db start

theorem SameValues.refl (db : PlatformDb) : SameValues db db := ⟨fun _ => rfl, fun _ => rfl⟩

theorem sameValues_upsertRows (db : PlatformDb) (r : ReserveRequest) : SameValues db (upsertRows db r) := by
  refine ⟨fun k => ?_, fun start => ?_⟩
  · rw [upsertRows, counterValue_upsertSpend, counterValue_upsertCounter, counterValue_upsertCounter]
  · rw [upsertRows, spendValue_upsertSpend, spendValue_upsertCounter, spendValue_upsertCounter]

theorem HasRows.upsertRows {h : SettleHandle} (hr : HasRows db h) (r : ReserveRequest) :
    HasRows (upsertRows db r) h where
  tokens := by
    rw [BetterDecision.upsertRows, upsertSpend_counters]
    exact isSome_upsertCounter (isSome_upsertCounter hr.tokens)
  micros := by
    rw [BetterDecision.upsertRows, upsertSpend_counters]
    exact isSome_upsertCounter (isSome_upsertCounter hr.micros)
  spend := isSome_upsertSpend (by rw [upsertCounter_spend, upsertCounter_spend]; exact hr.spend)

end Upserts

/-! ## What a step can do -/

inductive PlatformMove (w : PlatformWorld) : PlatformEvent → PlatformWorld → Prop
  /-- Calls move, none of them to a reservation; no row does. -/
  | quiet {ev : PlatformEvent} (calls : Table ReserveState)
      (none : ∀ call id, calls.get? call = some (.reserved id) → w.calls.get? call = some (.reserved id)) :
      PlatformMove w ev { w with calls }
  | upsert (call : Nat) (request : ReserveRequest) :
      PlatformMove w (.upsert call) { w.goto call (.upserted request) with db := upsertRows w.db request }
  | reserve (call : Nat) (request : ReserveRequest) {db : PlatformDb}
      (asked : w.calls.get? call = some (.upserted request)) (ok : incrementRows w.db request = .ok db) :
      PlatformMove w (.increment call) { w.goto call (.reserved w.reservations.next) with
        db, reservations := w.reservations.insert { handle := request.handle } }
  | settle {id : Nat} {r : Reservation} (tokens micros : Int) (made : w.reservations.get? id = some r)
      (undone : r.handle.done = false) :
      PlatformMove w (.settle id tokens micros)
        { markDone w id (some (tokens, micros)) with db := settleRows w.db r.handle tokens micros }
  | settleFails {id : Nat} {r : Reservation} (made : w.reservations.get? id = some r)
      (undone : r.handle.done = false) : PlatformMove w (.settleFails id) (markDone w id none)

/-- A call inserted in a state that is no reservation. -/
theorem reserved_of_insert {calls : Table ReserveState} {s : ReserveState} (hs : ∀ id, s ≠ .reserved id)
    {call id : Nat} (h : (calls.insert s).get? call = some (.reserved id)) :
    calls.get? call = some (.reserved id) := by
  rw [Table.get?_insert] at h
  split at h
  · exact absurd (Option.some.inj h) (hs id)
  · exact h

/-- A call moved to a state that is no reservation. -/
theorem reserved_of_goto {w : PlatformWorld} {s : ReserveState} (hs : ∀ id, s ≠ .reserved id)
    {call call' id : Nat} (h : (w.goto call s).calls.get? call' = some (.reserved id)) :
    w.calls.get? call' = some (.reserved id) := by
  obtain ⟨s', hs', he⟩ := Table.get?_modify_eq_some.mp h
  split at he
  · exact absurd he.symm (hs id)
  · rw [he]; exact hs'

theorem platformStep_move {w w' : PlatformWorld} {ev : PlatformEvent} (h : platformStep w ev = .ok w') :
    PlatformMove w ev w' := by
  have same : ∀ {ev}, PlatformMove w ev w := .quiet w.calls fun _ _ h => h
  cases ev with
  | resolve orgId tokens micros ceilingMicros today ent =>
    simp only [platformStep] at h
    split at h
    · obtain rfl := Except.ok.inj h
      exact .quiet _ fun _ _ => reserved_of_insert fun _ => by simp
    · obtain rfl := Except.ok.inj h
      exact .quiet _ fun _ _ => reserved_of_insert fun _ => by simp
  | upsert call =>
    simp only [platformStep] at h
    split at h
    · obtain rfl := Except.ok.inj h
      exact .upsert call _
    · cases h
  | increment call =>
    simp only [platformStep] at h
    split at h
    · rename_i request hcall
      split at h
      · rename_i db hinc
        obtain rfl := Except.ok.inj h
        exact .reserve call request hcall hinc
      · obtain rfl := Except.ok.inj h
        exact .quiet _ fun _ _ => reserved_of_goto fun _ => by simp
    · cases h
  | reserveFails call =>
    simp only [platformStep] at h
    split at h
    · obtain rfl := Except.ok.inj h
      exact .quiet _ fun _ _ => reserved_of_goto fun _ => by simp
    · obtain rfl := Except.ok.inj h
      exact .quiet _ fun _ _ => reserved_of_goto fun _ => by simp
    · cases h
  | settle id tokens micros =>
    simp only [platformStep] at h
    split at h
    · rename_i r hr
      split at h
      · obtain rfl := Except.ok.inj h
        exact same
      · rename_i hdone
        obtain rfl := Except.ok.inj h
        exact .settle tokens micros hr (by simpa using hdone)
    · cases h
  | settleFails id =>
    simp only [platformStep] at h
    split at h
    · rename_i r hr
      split at h
      · obtain rfl := Except.ok.inj h
        exact same
      · rename_i hdone
        obtain rfl := Except.ok.inj h
        exact .settleFails hr (by simpa using hdone)
    · cases h

/-! ## The invariant -/

theorem platformInv_init : PlatformInv {} where
  counters := .nil
  spend := .nil
  charged := ⟨fun _ => rfl, fun _ => rfl⟩
  rows := by intro i r h; simp at h
  apart := by intro i r h; simp at h
  undone := by intro i r h; simp at h

/-- A settled reservation moves the totals by what the rows move. -/
theorem total_markDone {w : PlatformWorld} {id : Nat} {r : Reservation} (h : w.reservations.get? id = some r)
    (actual : Option (Int × Int)) (f : Reservation → Int) :
    (markDone w id actual).reservations.total (fun _ r => f r) =
      w.reservations.total (fun _ r => f r) +
        (f { r with handle := { r.handle with done := true }, actual } - f r) :=
  Table.total_modify h (fun r => { r with handle := { r.handle with done := true }, actual }) (fun _ r => f r)

/-- The rows of a table of reservations after one is marked. -/
theorem get?_markDone {w : PlatformWorld} {id i : Nat} {actual : Option (Int × Int)} {r' : Reservation}
    (h : (markDone w id actual).reservations.get? i = some r') :
    ∃ r, w.reservations.get? i = some r ∧
      r' = if i = id then { r with handle := { r.handle with done := true }, actual } else r :=
  Table.get?_modify_eq_some.mp h

/-- What marking a reservation done leaves of the invariant. -/
theorem PlatformInv.marked {w : PlatformWorld} (h : PlatformInv w) {id : Nat} {actual : Option (Int × Int)}
    {i : Nat} {r' : Reservation} (hr' : (markDone w id actual).reservations.get? i = some r') :
    HasRows w.db r'.handle ∧ r'.handle.tokensKey ≠ r'.handle.microsKey ∧
      (r'.handle.done = false → r'.actual = none) := by
  obtain ⟨r, hr, rfl⟩ := get?_markDone hr'
  have hrows := h.rows i r hr
  split
  · exact ⟨⟨hrows.tokens, hrows.micros, hrows.spend⟩, h.apart i r hr, fun hd => by cases hd⟩
  · exact ⟨hrows, h.apart i r hr, h.undone i r hr⟩

/-- **One step keeps the books.** -/
theorem platformInv_move {w w' : PlatformWorld} {ev : PlatformEvent} (h : PlatformInv w)
    (hm : PlatformMove w ev w') : PlatformInv w' := by
  cases hm with
  | quiet calls _ => exact ⟨h.counters, h.spend, h.charged, h.rows, h.apart, h.undone⟩
  | upsert call request =>
    obtain ⟨hc, hs⟩ := sameValues_upsertRows w.db request
    refine ⟨?_, ?_, ⟨fun k => (hc k).trans (h.charged.1 k), fun start => (hs start).trans (h.charged.2 start)⟩,
      fun i r hr => (h.rows i r hr).upsertRows request, h.apart, h.undone⟩
    · rw [upsertRows, upsertSpend_counters]
      exact keyed_upsertCounter (keyed_upsertCounter h.counters _) _
    · exact keyed_upsertSpend (by rw [upsertCounter_spend, upsertCounter_spend]; exact h.spend) _
  | reserve call request asked ok =>
    obtain ⟨hrows, rfl, -⟩ := incrementRows_ok ok
    obtain ⟨hkc, hks⟩ := keyed_addRows h.counters h.spend request.handle request.tokens request.micros
    have hget : ∀ i r, (w.reservations.insert { handle := request.handle }).get? i = some r →
        r = { handle := request.handle } ∨ w.reservations.get? i = some r := by
      intro i r hr
      rw [Table.get?_insert] at hr
      split at hr
      · exact .inl (Option.some.inj hr).symm
      · exact .inr hr
    refine ⟨hkc, hks, ⟨fun k => ?_, fun start => ?_⟩, fun i r hr => ?_, fun i r hr => ?_, fun i r hr => ?_⟩
    · rw [Table.total_insert, ← h.charged.1 k]
      exact counterValue_addRows hrows k
    · rw [Table.total_insert, ← h.charged.2 start]
      exact spendValue_addRows hrows start
    · rcases hget i r hr with rfl | hr
      · exact hrows.addRows _ _ _
      · exact (h.rows i r hr).addRows _ _ _
    · rcases hget i r hr with rfl | hr
      · exact tokensKey_ne_microsKey request
      · exact h.apart i r hr
    · rcases hget i r hr with rfl | hr
      · exact fun _ => rfl
      · exact h.undone i r hr
  | @settle id r tokens micros made undone =>
    have hrows := h.rows id r made
    have hnone := h.undone id r made undone
    obtain ⟨hkc, hks⟩ := keyed_addRows h.counters h.spend r.handle (tokens - r.handle.tokens)
      (micros - r.handle.micros)
    refine ⟨hkc, hks, ⟨fun k => ?_, fun start => ?_⟩, fun i r' hr' => ?_, fun i r' hr' => (h.marked hr').2.1,
      fun i r' hr' => (h.marked hr').2.2⟩
    · rw [settleRows_eq, counterValue_addRows hrows, h.charged.1 k]
      refine Eq.trans ?_ (total_markDone made _ _).symm
      simp only [Reservation.charge, Reservation.tokensNow, Reservation.microsNow, hnone, Option.map_some,
        Option.map_none, Option.getD_some, Option.getD_none]
      split <;> split <;> omega
    · rw [settleRows_eq, spendValue_addRows hrows, h.charged.2 start]
      refine Eq.trans ?_ (total_markDone made _ _).symm
      simp only [Reservation.spend, Reservation.microsNow, hnone, Option.map_some,
        Option.map_none, Option.getD_some, Option.getD_none]
      split <;> omega
    · exact (h.marked hr').1.addRows _ _ _
  | @settleFails id r made undone =>
    have hnone := h.undone id r made undone
    have hsame : ∀ f : Reservation → Int, (∀ done, f { r with handle := { r.handle with done } } = f r) →
        (markDone w id none).reservations.total (fun _ r => f r) = w.reservations.total (fun _ r => f r) := by
      intro f hf
      rw [total_markDone made, ← hnone, hf true, sub_self, add_zero]
    refine ⟨h.counters, h.spend, ⟨fun k => ?_, fun start => ?_⟩, fun i r' hr' => (h.marked hr').1,
      fun i r' hr' => (h.marked hr').2.1, fun i r' hr' => (h.marked hr').2.2⟩
    · exact (h.charged.1 k).trans (hsame (fun r => r.charge k) fun _ => rfl).symm
    · exact (h.charged.2 start).trans (hsame (fun r => r.spend start) fun _ => rfl).symm

/-! ## The accounts -/

/-- What one step promises. -/
structure ReserveSpec (w : PlatformWorld) (ev : PlatformEvent) (w' : PlatformWorld) : Prop where
  /-- A reserve that succeeds leaves its three rows within what it was given. -/
  admitted : ∀ call request id, w.calls.get? call = some (.upserted request) →
    w'.calls.get? call = some (.reserved id) →
    counterValue w'.db request.tokensKey ≤ request.tokensLimit ∧
      counterValue w'.db request.microsKey ≤ request.microsLimit ∧
      spendValue w'.db request.month ≤ request.ceilingMicros
  /-- A reserve that is refused reserved nothing. -/
  refused : ∀ call e, w.calls.get? call ≠ some (.refused e) → w'.calls.get? call = some (.refused e) →
    w'.reservations = w.reservations
  /-- A step that makes no reservation and settles none changes no value. -/
  quiet : w'.reservations = w.reservations → SameValues w.db w'.db
  /-- A handle settles once. -/
  once : ∀ id r tokens micros, ev = .settle id tokens micros → w.reservations.get? id = some r →
    r.handle.done = true → w' = w

/-- A reservation marked is not the table it was. -/
theorem markDone_ne {w : PlatformWorld} {id : Nat} {r : Reservation} {actual : Option (Int × Int)}
    (made : w.reservations.get? id = some r) (undone : r.handle.done = false) :
    (markDone w id actual).reservations ≠ w.reservations := by
  intro he
  have hget : (markDone w id actual).reservations.get? id = some _ := Table.get?_modify_self made
  rw [he, made] at hget
  rw [Option.some.inj hget] at undone
  cases undone

theorem reserveSpec_step {w w' : PlatformWorld} {ev : PlatformEvent} (h : platformStep w ev = .ok w') :
    ReserveSpec w ev w' := by
  have hm := platformStep_move h
  refine ⟨?_, ?_, ?_, ?_⟩
  · intro call request id hcall hcall'
    cases hm with
    | quiet calls hnone => rw [hnone call id hcall'] at hcall; cases hcall
    | upsert call' request' =>
      have := reserved_of_goto (fun id => by simp) hcall'
      rw [this] at hcall
      cases hcall
    | reserve call' request' asked ok =>
      obtain ⟨s, hs, he⟩ := Table.get?_modify_eq_some.mp hcall'
      split at he
      · subst call
        obtain rfl : request' = request := by
          rw [asked] at hcall
          exact ReserveState.upserted.inj (Option.some.inj hcall)
        exact (incrementRows_ok ok).2.2
      · rw [hs, ← he] at hcall
        cases hcall
    | settle _ _ _ _ => rw [show w.calls.get? call = _ from hcall'] at hcall; cases hcall
    | settleFails _ _ => rw [show w.calls.get? call = _ from hcall'] at hcall; cases hcall
  · intro call e hcall hcall'
    cases hm with
    | quiet calls _ => rfl
    | upsert call' request' => rfl
    | reserve call' request' asked ok =>
      obtain ⟨s, hs, he⟩ := Table.get?_modify_eq_some.mp hcall'
      split at he
      · cases he
      · rw [← he] at hs
        exact absurd hs hcall
    | settle _ _ _ _ => exact absurd hcall' hcall
    | settleFails _ _ => exact absurd hcall' hcall
  · intro hsame
    cases hm with
    | quiet calls _ => exact .refl _
    | upsert call request => exact sameValues_upsertRows w.db request
    | reserve call request asked ok =>
      have := congrArg Table.next hsame
      simp at this
    | settle _ _ made undone => exact absurd hsame (markDone_ne made undone)
    | settleFails made undone => exact absurd hsame (markDone_ne made undone)
  · rintro id r tokens micros rfl hr hdone
    simp only [platformStep, hr, hdone, if_true] at h
    exact (Except.ok.inj h).symm

/-- **In every interleaving of reserves and settles** the rows hold what the reservations
come to, and every step keeps its promise. -/
theorem platform_spend_accounts (events : List PlatformEvent) :
    Charged (run platformStep {} events) ∧
      ∀ ev w', platformStep (run platformStep {} events) ev = .ok w' →
        ReserveSpec (run platformStep {} events) ev w' := by
  have hinv : PlatformInv (run platformStep {} events) :=
    run_invariant (fun _ _ _ h hstep => platformInv_move h (platformStep_move hstep)) events platformInv_init
  exact ⟨hinv.charged, fun _ _ h => reserveSpec_step h⟩

/-- A reserve on the last of January, settled in February: January's rows move. -/
example :
    let limit : UsageLimit := { period := .month, limit := some 100 }
    let w := run platformStep {} [.resolve 1 40 7 50 738916 (some ⟨limit, limit⟩), .upsert 1, .increment 1,
      .settle 1 25 3, .settle 1 90 90]
    w.db.counters.map (·.value) = [25, 3] ∧ w.db.spend = [⟨738886, 3⟩] := by
  decide

end BetterDecision
