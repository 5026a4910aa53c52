import BetterDecision.Model.StatementAlerts
import BetterDecision.Proof.CardCycles

/-!
# One alert a statement

A close is the last from its day to the day before the next, and a reminder of it comes
within the lead before it, so a close comes up on days no further apart than the longest
month: less than a job looks back. The markers of a job are then a log that is only looked
back on, and no close is told twice. A job stands still where the resolver has no cycle to
give, at the ends of the calendar.
-/

namespace BetterDecision

open Calendar

/-! ## The last close -/

/-- The close of the month is the last one by the day. -/
def ClosedLast (closeDay : Nat) (month today : Int) : Prop :=
  onMonth month closeDay ≤ today ∧ today < onMonth (month + 1) closeDay

instance (closeDay : Nat) (month today : Int) : Decidable (ClosedLast closeDay month today) :=
  inferInstanceAs (Decidable (_ ∧ _))

theorem closedLast_iff {closeDay : Nat} (hclose : 1 ≤ closeDay) {month today : Int} :
    ClosedLast closeDay month today ↔ firstMonth closeDay (today + 1) = month + 1 := by
  rw [firstMonth_eq_iff (show (1 : Int) ≤ closeDay by omega), Int.add_sub_cancel]
  unfold ClosedLast
  omega

/-- Every day has a last close. -/
theorem exists_closedLast {closeDay : Nat} (hclose : 1 ≤ closeDay) (today : Int) :
    ∃ month, ClosedLast closeDay month today :=
  ⟨firstMonth closeDay (today + 1) - 1, (closedLast_iff hclose).mpr (Int.sub_add_cancel _ _).symm⟩

/-- The cycles a job asks for on a day: that of the last close, and once the day is past it
the next. -/
def CyclesInCalendar (account : Account) (closeDay : Nat) (month today : Int) : Prop :=
  (cardCycle account closeDay month).InCalendar ∧
    (onMonth month closeDay < today → (cardCycle account closeDay (month + 1)).InCalendar)

instance (account : Account) (closeDay : Nat) (month today : Int) :
    Decidable (CyclesInCalendar account closeDay month today) :=
  inferInstanceAs (Decidable (_ ∧ (_ → _)))

section Card

variable {card : CardAccount} {closeDay : Nat}

theorem resolveCycleForAccount_eq (hcard : card.account.closeDay = some closeDay) (hclose : 1 ≤ closeDay)
    (hpayment : 1 ≤ card.account.paymentDay.getD 1) (target : Int) :
    resolveCycleForAccount card.account target =
      if (cardCycle card.account closeDay (firstMonth closeDay target)).InCalendar then
        .ok (cardCycle card.account closeDay (firstMonth closeDay target))
      else .error .overflow := by
  unfold resolveCycleForAccount
  rw [hcard]
  exact resolveCycle_eq hclose hpayment target

/-- **The cycle that closed last is that of the last close by the day**, where the calendar
has it. -/
theorem mostRecentClosedCycle_eq (hcard : card.account.closeDay = some closeDay) (hclose : 1 ≤ closeDay)
    (hpayment : 1 ≤ card.account.paymentDay.getD 1) {month today : Int} (hlast : ClosedLast closeDay month today) :
    mostRecentClosedCycle card today =
      if CyclesInCalendar card.account closeDay month today then
        .ok (if onMonth month closeDay ≤ card.createdOn then none else some (cardCycle card.account closeDay month))
      else .error .overflow := by
  have hday : (1 : Int) ≤ closeDay := by omega
  have hmono : StrictMono (onMonth · (closeDay : Int)) := onMonth_strictMono hday
  have hthis : firstMonth closeDay (onMonth month closeDay) = month :=
    (firstMonth_eq_iff hday).mpr ⟨hmono (show month - 1 < month by omega), le_rfl⟩
  unfold mostRecentClosedCycle
  rw [resolveCycleForAccount_eq hcard hclose hpayment]
  rcases hlast.1.eq_or_lt with heq | hlt
  · -- on the close itself
    rw [← heq, hthis]
    by_cases hin : (cardCycle card.account closeDay month).InCalendar
    · rw [if_pos hin, if_pos ⟨hin, fun h => absurd h (lt_irrefl _)⟩]
      have hended : ¬ onMonth month closeDay < (cardCycle card.account closeDay month).periodEndInclusive := lt_irrefl _
      rw [bind_ok, if_neg hended]
      rfl
    · rw [if_neg hin, if_neg fun h => hin h.1]
      rfl
  · -- past it, in the cycle of the next
    have hnext : firstMonth closeDay today = month + 1 :=
      (firstMonth_eq_iff hday).mpr ⟨by rwa [Int.add_sub_cancel], hlast.2.le⟩
    rw [hnext]
    by_cases hin' : (cardCycle card.account closeDay (month + 1)).InCalendar
    · have hopen : today < (cardCycle card.account closeDay (month + 1)).periodEndInclusive := hlast.2
      have hstart : (cardCycle card.account closeDay (month + 1)).periodStart = onMonth month closeDay + 1 := by
        change onMonth (month + 1 - 1) closeDay + 1 = _
        rw [Int.add_sub_cancel]
      have hbefore : daysBefore (cardCycle card.account closeDay (month + 1)).periodStart 1 =
          .ok (onMonth month closeDay) := by
        have hpos := hin'.1
        unfold daysBefore
        rw [if_neg (by omega), hstart, Int.add_sub_cancel]
      rw [if_pos hin', bind_ok, if_pos hopen, hbefore, bind_ok,
        resolveCycleForAccount_eq hcard hclose hpayment, hthis]
      by_cases hin : (cardCycle card.account closeDay month).InCalendar
      · rw [if_pos hin, if_pos ⟨hin, fun _ => hin'⟩]
        rfl
      · rw [if_neg hin, if_neg fun h => hin h.1]
        rfl
    · rw [if_neg hin', if_neg fun h => hin' (h.2 hlt)]
      rfl

end Card

/-! ## What a job finds -/

section Config

variable (config : AlertConfig)

theorem AlertConfig.mem_cards {config : AlertConfig} {a : CardAccount} (ha : a ∈ config.cards) :
    ∃ closeDay, a.account.closeDay = some closeDay ∧ 1 ≤ closeDay ∧ 1 ≤ a.account.paymentDay.getD 1 := by
  obtain ⟨hmem, hcard⟩ := List.mem_filter.mp ha
  obtain ⟨closeDay, hclose⟩ := Option.ne_none_iff_exists'.mp (of_decide_eq_true hcard).2.2.2
  have hpos := config.closeDays a hmem
  rw [hclose] at hpos
  exact ⟨closeDay, hclose, hpos, config.paymentDays a hmem⟩

theorem AlertConfig.cards_nodup : (config.cards.map (·.id)).Nodup :=
  config.ids.sublist (List.filter_sublist.map _)

theorem AlertConfig.card_unique {config : AlertConfig} {a b : CardAccount} (ha : a ∈ config.cards)
    (hb : b ∈ config.cards) (h : a.id = b.id) : a = b :=
  List.inj_on_of_nodup_map config.cards_nodup ha hb h

/-- The closes a job would tell of on a day, told or not. It has none where it raises. -/
def candidates (find : CardAccount → Int → Result (Option DueCard)) (today : Int) : List (Nat × Int) :=
  match daysBefore today dedupLookbackDays, foundCards config find today with
  | .ok _, .ok cards => cards.map DueCard.key
  | _, _ => []

variable {config} {find : CardAccount → Int → Result (Option DueCard)}

/-- A job tells of a card under its id. -/
def Named (find : CardAccount → Int → Result (Option DueCard)) : Prop :=
  ∀ a today card, find a today = .ok (some card) → card.accountId = a.id

theorem foundCards_eq_ok {today : Int} {cards : List DueCard} (h : foundCards config find today = .ok cards) :
    ∃ found, List.Forall₂ (fun a o => find a today = .ok o) config.cards found ∧ cards = found.reduceOption := by
  obtain ⟨found, hfound, h⟩ := bind_eq_ok.mp h
  exact ⟨found, mapM_eq_ok.mp hfound, (Except.ok.inj h).symm⟩

theorem mem_of_found {accounts : List CardAccount} {found : List (Option DueCard)} {today : Int} {card : DueCard}
    (h : List.Forall₂ (fun a o => find a today = .ok o) accounts found) (hcard : card ∈ found.reduceOption) :
    ∃ a ∈ accounts, find a today = .ok (some card) := by
  induction h with
  | nil => cases hcard
  | @cons a o accounts found ho _ ih =>
    cases o with
    | none =>
      rw [List.reduceOption_cons_of_none] at hcard
      obtain ⟨b, hb, hfind⟩ := ih hcard
      exact ⟨b, List.mem_cons_of_mem _ hb, hfind⟩
    | some c =>
      rw [List.reduceOption_cons_of_some] at hcard
      rcases List.mem_cons.mp hcard with rfl | hcard
      · exact ⟨a, List.mem_cons_self, ho⟩
      · obtain ⟨b, hb, hfind⟩ := ih hcard
        exact ⟨b, List.mem_cons_of_mem _ hb, hfind⟩

theorem found_of_mem {accounts : List CardAccount} {found : List (Option DueCard)} {today : Int} {a : CardAccount}
    (h : List.Forall₂ (fun a o => find a today = .ok o) accounts found) (ha : a ∈ accounts) :
    ∃ o ∈ found, find a today = .ok o := by
  induction h with
  | nil => cases ha
  | @cons b o accounts found ho _ ih =>
    rcases List.mem_cons.mp ha with rfl | ha
    · exact ⟨o, List.mem_cons_self, ho⟩
    · obtain ⟨o', ho', hfind⟩ := ih ha
      exact ⟨o', List.mem_cons_of_mem _ ho', hfind⟩

theorem found_sublist (hnamed : Named find) {accounts : List CardAccount} {found : List (Option DueCard)} {today : Int}
    (h : List.Forall₂ (fun a o => find a today = .ok o) accounts found) :
    (found.reduceOption.map DueCard.accountId).Sublist (accounts.map (·.id)) := by
  induction h with
  | nil => exact List.Sublist.refl _
  | @cons a o accounts found ho _ ih =>
    cases o with
    | none =>
      rw [List.reduceOption_cons_of_none]
      exact ih.cons _
    | some c =>
      rw [List.reduceOption_cons_of_some, List.map_cons, List.map_cons, hnamed a today c ho]
      exact ih.cons_cons _

theorem candidates_nodup (hnamed : Named find) (today : Int) : (candidates config find today).Nodup := by
  unfold candidates
  split
  · rename_i cards _ hcards
    obtain ⟨found, hfound, rfl⟩ := foundCards_eq_ok hcards
    refine List.Nodup.of_map Prod.fst ?_
    rw [List.map_map]
    exact config.cards_nodup.sublist (found_sublist hnamed hfound)
  · exact List.nodup_nil

theorem mem_candidates {today : Int} {k : Nat × Int} (h : k ∈ candidates config find today) :
    ∃ a ∈ config.cards, ∃ card, find a today = .ok (some card) ∧ k = card.key := by
  unfold candidates at h
  split at h
  · rename_i cards _ hcards
    obtain ⟨found, hfound, rfl⟩ := foundCards_eq_ok hcards
    obtain ⟨card, hcard, rfl⟩ := List.mem_map.mp h
    obtain ⟨a, ha, hfind⟩ := mem_of_found hfound hcard
    exact ⟨a, ha, card, hfind, rfl⟩
  · cases h

/-- Where no card raises, what a card has is found. -/
theorem candidates_of_found {today : Int} (htoday : dedupLookbackDays < today)
    (hall : ∀ a ∈ config.cards, ∃ o, find a today = .ok o) {a : CardAccount} (ha : a ∈ config.cards) {card : DueCard}
    (hfind : find a today = .ok (some card)) : card.key ∈ candidates config find today := by
  obtain ⟨found, hfound⟩ := mapM_returns hall
  have hcards : foundCards config find today = .ok found.reduceOption := by
    unfold foundCards
    rw [hfound]
    rfl
  have hbefore : daysBefore today dedupLookbackDays = .ok (today - dedupLookbackDays) := if_neg (by omega)
  unfold candidates
  rw [hbefore, hcards]
  refine List.mem_map_of_mem ?_
  obtain ⟨o, ho, hmem⟩ := found_of_mem (mapM_eq_ok.mp hfound) ha
  rw [hfind] at hmem
  obtain rfl := Except.ok.inj hmem
  exact List.reduceOption_mem_iff.mpr ho

/-! ## The markers as a log -/

/-- The keys a job has on record, each with the day of its marker. -/
def markerLog (type : AlertType) (s : AlertState) : List ((Nat × Int) × Int) :=
  (s.markers.filter (·.type = type)).map fun m => ((m.accountId, m.closeDate), m.createdOn)

/-- The notices a job has sent, likewise. -/
def noticeLog (type : AlertType) (s : AlertState) : List ((Nat × Int) × Int) :=
  (s.notices.filter (·.type = type)).map fun n => ((n.accountId, n.closeDate), n.sentOn)

theorem filter_map_of_all {α β : Type} {p : α → Bool} {f : β → α} {ys : List β} (h : ∀ y, p (f y) = true) :
    (ys.map f).filter p = ys.map f := by
  refine List.filter_eq_self.mpr fun a ha => ?_
  obtain ⟨y, -, rfl⟩ := List.mem_map.mp ha
  exact h y

theorem filter_map_of_none {α β : Type} {p : α → Bool} {f : β → α} {ys : List β} (h : ∀ y, p (f y) = false) :
    (ys.map f).filter p = [] := by
  refine List.filter_eq_nil_iff.mpr fun a ha => ?_
  obtain ⟨y, -, rfl⟩ := List.mem_map.mp ha
  exact ne_true_of_eq_false (h y)

theorem ccAlertsSentSince_eq (type : AlertType) (since : Int) (s : AlertState) :
    ccAlertsSentSince s.markers type since = Lookback.sentSince since (markerLog type s) := by
  unfold ccAlertsSentSince Lookback.sentSince markerLog
  rw [List.filter_map, List.map_map, List.filter_filter]
  congr 1
  refine List.filter_congr fun m _ => ?_
  simp only [Function.comp_apply, Bool.decide_and, Bool.and_comm]

theorem sendAlert_markers (type : AlertType) (today : Int) (s : AlertState) (due : List DueCard) :
    (due.foldl (sendAlert type today) s).markers =
      s.markers ++ due.map fun card =>
        { type, accountId := card.accountId, closeDate := card.closeDate, createdOn := today } := by
  induction due generalizing s with
  | nil => exact (List.append_nil _).symm
  | cons card due ih =>
    rw [List.foldl_cons, ih, List.map_cons]
    exact List.append_assoc _ _ _

theorem sendAlert_notices (type : AlertType) (today : Int) (s : AlertState) (due : List DueCard) :
    (due.foldl (sendAlert type today) s).notices =
      s.notices ++ due.map fun card =>
        { type, accountId := card.accountId, accountName := card.accountName, closeDate := card.closeDate,
          sentOn := today } := by
  induction due generalizing s with
  | nil => exact (List.append_nil _).symm
  | cons card due ih =>
    rw [List.foldl_cons, ih, List.map_cons]
    exact List.append_assoc _ _ _

theorem markerLog_sent (type : AlertType) (today : Int) (s : AlertState) (due : List DueCard) :
    markerLog type (due.foldl (sendAlert type today) s) =
      markerLog type s ++ (due.map DueCard.key).map (·, today) := by
  unfold markerLog
  rw [sendAlert_markers, List.filter_append, filter_map_of_all, List.map_append, List.map_map, List.map_map]
  · rfl
  · exact fun card => decide_eq_true rfl

theorem noticeLog_sent (type : AlertType) (today : Int) (s : AlertState) (due : List DueCard) :
    noticeLog type (due.foldl (sendAlert type today) s) =
      noticeLog type s ++ (due.map DueCard.key).map (·, today) := by
  unfold noticeLog
  rw [sendAlert_notices, List.filter_append, filter_map_of_all, List.map_append, List.map_map, List.map_map]
  · rfl
  · exact fun card => decide_eq_true rfl

/-- The other job's log is left alone. -/
theorem logs_sent_of_ne {type other : AlertType} (hne : type ≠ other) (today : Int) (s : AlertState)
    (due : List DueCard) :
    markerLog other (due.foldl (sendAlert type today) s) = markerLog other s ∧
      noticeLog other (due.foldl (sendAlert type today) s) = noticeLog other s := by
  unfold markerLog noticeLog
  rw [sendAlert_markers, sendAlert_notices, List.filter_append, List.filter_append, filter_map_of_none,
    filter_map_of_none, List.append_nil, List.append_nil]
  · exact ⟨rfl, rfl⟩
  · exact fun card => decide_eq_false hne
  · exact fun card => decide_eq_false hne

/-- What a job sends is what it finds and has not told in the days it looks back on. -/
theorem dueCards_keys {type : AlertType} {s : AlertState} {today : Int} {due : List DueCard}
    (h : dueCards config type find s today = .ok due) :
    due.map DueCard.key =
      Lookback.fresh dedupLookbackDays today (markerLog type s) (candidates config find today) := by
  unfold dueCards at h
  split at h
  · rename_i hnone
    obtain rfl := Except.ok.inj h
    have hcards : foundCards config find today = .ok [] := by
      unfold foundCards
      rw [List.isEmpty_iff.mp hnone]
      rfl
    unfold candidates
    rw [hcards]
    cases daysBefore today dedupLookbackDays <;> rfl
  · obtain ⟨since, hsince, h⟩ := bind_eq_ok.mp h
    obtain ⟨cards, hcards, h⟩ := bind_eq_ok.mp h
    obtain rfl := Except.ok.inj h
    have hday : since = today - dedupLookbackDays := by
      unfold daysBefore at hsince
      split at hsince
      · cases hsince
      · exact (Except.ok.inj hsince).symm
    unfold candidates
    rw [hsince, hcards, ccAlertsSentSince_eq, hday, Lookback.fresh, List.filter_map]
    exact congrArg (List.map DueCard.key) (List.filter_congr fun card _ => decide_eq_decide.mpr Iff.rfl)

theorem dueCards_error {type : AlertType} {s : AlertState} {today : Int} {e : ServiceError}
    (h : dueCards config type find s today = .error e) : candidates config find today = [] := by
  unfold dueCards at h
  split at h
  · cases h
  · unfold candidates
    rcases bind_eq_error.mp h with h | ⟨since, hsince, h⟩
    · rw [h]
    · rcases bind_eq_error.mp h with h | ⟨cards, -, h⟩
      · rw [hsince, h]
      · cases h

variable (config find) in
/-- **A job is a sender with a log it looks back on**, and its notices go with its markers. -/
theorem runAlerts_log (type : AlertType) (s : AlertState) (today : Int) :
    markerLog type (serve (runAlerts config type find) s today) =
        Lookback.step dedupLookbackDays (markerLog type s) (today, candidates config find today) ∧
      (noticeLog type s = markerLog type s →
        noticeLog type (serve (runAlerts config type find) s today) =
          markerLog type (serve (runAlerts config type find) s today)) := by
  unfold serve runAlerts Lookback.step
  cases hdue : dueCards config type find s today with
  | error e =>
    rw [dueCards_error hdue]
    exact ⟨(List.append_nil _).symm, id⟩
  | ok due =>
    rw [bind_ok]
    dsimp only
    rw [markerLog_sent, noticeLog_sent, dueCards_keys hdue]
    exact ⟨rfl, fun h => by rw [h]⟩

variable (config find) in
theorem runAlerts_other {type other : AlertType} (hne : type ≠ other) (s : AlertState) (today : Int) :
    markerLog other (serve (runAlerts config type find) s today) = markerLog other s ∧
      noticeLog other (serve (runAlerts config type find) s today) = noticeLog other s := by
  unfold serve runAlerts
  cases dueCards config type find s today with
  | error e => exact ⟨rfl, rfl⟩
  | ok due => exact logs_sent_of_ne hne today s due

/-! ## A run of ticks -/

/-- The search of a job. -/
def finder (config : AlertConfig) : AlertType → CardAccount → Int → Result (Option DueCard)
  | .reminder => reminderOf config
  | .closed => closedOf

variable (config) in
theorem alertTick_log (type : AlertType) (s : AlertState) (today : Int) :
    markerLog type (alertTick config s today) =
        Lookback.step dedupLookbackDays (markerLog type s) (today, candidates config (finder config type) today) ∧
      (noticeLog type s = markerLog type s →
        noticeLog type (alertTick config s today) = markerLog type (alertTick config s today)) := by
  have hreminded : ∀ other ≠ AlertType.reminder, _ := fun other hne =>
    runAlerts_other config (reminderOf config) (Ne.symm hne) s today
  cases type with
  | reminder =>
    obtain ⟨hlog, hnotices⟩ := runAlerts_other config closedOf
      (show AlertType.closed ≠ .reminder by decide) (serve (runReminders config) s today) today
    obtain ⟨hlog', hnotices'⟩ := runAlerts_log config (reminderOf config) .reminder s today
    exact ⟨hlog.trans hlog', fun h => hnotices.trans ((hnotices' h).trans hlog.symm)⟩
  | closed =>
    obtain ⟨hlog, hnotices⟩ := runAlerts_log config closedOf .closed
      (serve (runReminders config) s today) today
    obtain ⟨hlog', hnotices'⟩ := hreminded .closed (by decide)
    refine ⟨?_, fun h => hnotices (hnotices'.trans (h.trans hlog'.symm))⟩
    exact hlog.trans (congrArg (Lookback.step dedupLookbackDays · _) hlog')

/-- The notices of a run are those of a sender with a log, over the closes of each tick. -/
theorem noticeLog_ticks (type : AlertType) (ticks : List Int) :
    noticeLog type (alertTicks config ticks) =
      Lookback.send dedupLookbackDays (ticks.map fun t => (t, candidates config (finder config type) t)) := by
  have hrun : ∀ s, noticeLog type s = markerLog type s →
      noticeLog type (ticks.foldl (alertTick config) s) =
        (ticks.map fun t => (t, candidates config (finder config type) t)).foldl
          (Lookback.step dedupLookbackDays) (markerLog type s) := by
    induction ticks with
    | nil => exact fun s h => h
    | cons t ticks ih =>
      intro s h
      obtain ⟨hlog, hnotices⟩ := alertTick_log config type s t
      rw [List.foldl_cons, ih _ (hnotices h), hlog, List.map_cons, List.foldl_cons]
  exact hrun {} rfl

/-- The closes of a job come up on days close enough for it not to lose sight of its marker. -/
def Near (find : CardAccount → Int → Result (Option DueCard)) (config : AlertConfig) : Prop :=
  ∀ t t', ∀ k ∈ candidates config find t, k ∈ candidates config find t' → t' ≤ t + dedupLookbackDays

theorem noticeLog_nodup {type : AlertType} (hnamed : Named (finder config type))
    (hnear : Near (finder config type) config) {ticks : List Int} (hticks : ticks.Pairwise (· ≤ ·)) :
    ((noticeLog type (alertTicks config ticks)).map (·.1)).Nodup := by
  rw [noticeLog_ticks]
  refine Lookback.send_nodup ⟨?_, ?_, ?_⟩
  · intro day hday
    obtain ⟨t, -, rfl⟩ := List.mem_map.mp hday
    exact candidates_nodup hnamed t
  · exact List.pairwise_map.mpr hticks
  · intro a ha b hb k hka hkb
    obtain ⟨t, -, rfl⟩ := List.mem_map.mp ha
    obtain ⟨t', -, rfl⟩ := List.mem_map.mp hb
    exact hnear t t' k hka hkb

theorem candidate_of_notice {type : AlertType} {ticks : List Int} {n : AlertNotice}
    (hn : n ∈ (alertTicks config ticks).notices) (htype : n.type = type) :
    n.sentOn ∈ ticks ∧ (n.accountId, n.closeDate) ∈ candidates config (finder config type) n.sentOn := by
  have hlog : ((n.accountId, n.closeDate), n.sentOn) ∈ noticeLog type (alertTicks config ticks) :=
    List.mem_map.mpr ⟨n, List.mem_filter.mpr ⟨hn, decide_eq_true htype⟩, rfl⟩
  rw [noticeLog_ticks] at hlog
  obtain ⟨day, hday, hsent, hk⟩ := Lookback.day_of_mem_send hlog
  obtain ⟨t, ht, rfl⟩ := List.mem_map.mp hday
  obtain rfl : t = n.sentOn := hsent
  exact ⟨ht, hk⟩

theorem notice_of_candidate {type : AlertType} {ticks : List Int} {t : Int} (ht : t ∈ ticks) {k : Nat × Int}
    (hk : k ∈ candidates config (finder config type) t) :
    ∃ n ∈ (alertTicks config ticks).notices, n.type = type ∧ n.accountId = k.1 ∧ n.closeDate = k.2 := by
  have hsent : k ∈ (noticeLog type (alertTicks config ticks)).map (·.1) := by
    rw [noticeLog_ticks]
    exact Lookback.sent_of_mem (List.mem_map_of_mem ht) hk
  obtain ⟨e, he, rfl⟩ := List.mem_map.mp hsent
  obtain ⟨n, hn, rfl⟩ := List.mem_map.mp he
  obtain ⟨hn, htype⟩ := List.mem_filter.mp hn
  exact ⟨n, hn, of_decide_eq_true htype, rfl, rfl⟩

/-! ## What the two jobs find -/

theorem closedOf_named : Named closedOf := by
  intro a today card h
  obtain ⟨cycle, -, h⟩ := bind_eq_ok.mp h
  obtain ⟨c, -, rfl⟩ := Option.map_eq_some_iff.mp (Except.ok.inj h)
  rfl

theorem reminderOf_named : Named (reminderOf config) := by
  intro a today card h
  obtain ⟨cycle, -, h⟩ := bind_eq_ok.mp h
  obtain ⟨-, h⟩ := Option.ite_none_right_eq_some.mp (Except.ok.inj h)
  obtain rfl := Option.some.inj h
  rfl

/-- A close that is told is the last by the day, and later than the card. -/
theorem closed_of_candidate {today : Int} {k : Nat × Int} (h : k ∈ candidates config closedOf today) :
    ∃ a ∈ config.cards, ∃ closeDay month, a.account.closeDay = some closeDay ∧ 1 ≤ closeDay ∧
      k = (a.id, onMonth month closeDay) ∧ ClosedLast closeDay month today ∧ a.createdOn < onMonth month closeDay := by
  obtain ⟨a, ha, card, hfind, rfl⟩ := mem_candidates h
  obtain ⟨closeDay, hcard, hclose, hpayment⟩ := AlertConfig.mem_cards ha
  obtain ⟨month, hlast⟩ := exists_closedLast hclose today
  obtain ⟨cycle, hcycle, hfind⟩ := bind_eq_ok.mp hfind
  rw [mostRecentClosedCycle_eq hcard hclose hpayment hlast] at hcycle
  obtain ⟨c, rfl, rfl⟩ := Option.map_eq_some_iff.mp (Except.ok.inj hfind)
  split at hcycle
  · obtain ⟨hnew, hcycle⟩ := Option.ite_none_left_eq_some.mp (Except.ok.inj hcycle)
    obtain rfl := Option.some.inj hcycle
    exact ⟨a, ha, closeDay, month, hcard, hclose, rfl, hlast, not_le.mp hnew⟩
  · cases hcycle

/-- A close that is reminded of is ahead, and within the lead. -/
theorem reminded_of_candidate {today : Int} {k : Nat × Int} (h : k ∈ candidates config (reminderOf config) today) :
    ∃ a ∈ config.cards, ∃ closeDay month, a.account.closeDay = some closeDay ∧ 1 ≤ closeDay ∧
      k = (a.id, onMonth month closeDay) ∧ today < onMonth month closeDay ∧
      onMonth month closeDay ≤ today + ccStatementLeadDays config.leadSetting := by
  obtain ⟨a, ha, card, hfind, rfl⟩ := mem_candidates h
  obtain ⟨closeDay, hcard, hclose, hpayment⟩ := AlertConfig.mem_cards ha
  obtain ⟨cycle, hcycle, hfind⟩ := bind_eq_ok.mp hfind
  rw [resolveCycleForAccount_eq hcard hclose hpayment] at hcycle
  obtain ⟨hlead, hfind⟩ := Option.ite_none_right_eq_some.mp (Except.ok.inj hfind)
  obtain rfl := Option.some.inj hfind
  split at hcycle
  · obtain rfl := Except.ok.inj hcycle
    obtain ⟨hahead, hwithin⟩ := hlead
    change 0 < onMonth (firstMonth closeDay today) closeDay - today at hahead
    change onMonth (firstMonth closeDay today) closeDay - today ≤ _ at hwithin
    exact ⟨a, ha, closeDay, firstMonth closeDay today, hcard, hclose, rfl, by omega, by omega⟩
  · cases hcycle

/-- A key that two searches give is of one card. -/
theorem month_unique {a a' : CardAccount} {closeDay closeDay' : Nat} {month month' : Int} (ha : a ∈ config.cards)
    (ha' : a' ∈ config.cards) (hcard : a.account.closeDay = some closeDay)
    (hcard' : a'.account.closeDay = some closeDay')
    (hkey : (a.id, onMonth month closeDay) = (a'.id, onMonth month' closeDay')) : a = a' ∧ closeDay = closeDay' := by
  obtain rfl := AlertConfig.card_unique ha ha' (Prod.mk.inj hkey).1
  rw [hcard] at hcard'
  exact ⟨rfl, Option.some.inj hcard'⟩

/-- A close is the last for a month at most. -/
theorem closedOf_near : Near closedOf config := by
  intro t t' k hk hk'
  obtain ⟨a, ha, closeDay, month, hcard, hclose, rfl, hlast, -⟩ := closed_of_candidate hk
  obtain ⟨a', ha', closeDay', month', hcard', -, hkey, hlast', -⟩ := closed_of_candidate hk'
  obtain ⟨rfl, rfl⟩ := month_unique ha ha' hcard hcard' hkey
  have hday : (1 : Int) ≤ closeDay := by omega
  obtain rfl : month = month' := (onMonth_strictMono hday).injective (Prod.mk.inj hkey).2
  have hnext := onMonth_succ_le month closeDay
  have hback : dedupLookbackDays = 40 := rfl
  have hbefore := hlast.1
  have hafter := hlast'.2
  omega

theorem ccStatementLeadDays_le (setting : Option Int) : ccStatementLeadDays setting ≤ 31 := by
  unfold ccStatementLeadDays
  split <;> omega

/-- A close is reminded of within the lead, which is a month at most. -/
theorem reminderOf_near : Near (reminderOf config) config := by
  intro t t' k hk hk'
  obtain ⟨a, ha, closeDay, month, hcard, hclose, rfl, -, hwithin⟩ := reminded_of_candidate hk
  obtain ⟨a', ha', closeDay', month', hcard', -, hkey, hahead, -⟩ := reminded_of_candidate hk'
  obtain ⟨rfl, rfl⟩ := month_unique ha ha' hcard hcard' hkey
  have hlead := ccStatementLeadDays_le config.leadSetting
  have hclose' : onMonth month closeDay = onMonth month' closeDay := (Prod.mk.inj hkey).2
  have hback : dedupLookbackDays = 40 := rfl
  omega

/-! ## Once each -/

/-- A tick on which no card runs into an end of the calendar. -/
structure TickInCalendar (config : AlertConfig) (today : Int) : Prop where
  lookback : dedupLookbackDays < today
  cycles : ∀ a ∈ config.cards, ∀ closeDay month, a.account.closeDay = some closeDay →
    ClosedLast closeDay month today → CyclesInCalendar a.account closeDay month today

/-- What the members are told over a run of ticks. -/
structure AlertedOnce (config : AlertConfig) (ticks : List Int) : Prop where
  /-- No close of a card is told twice, and none but the last by the day, later than the card. -/
  closedOnce : ((noticeLog .closed (alertTicks config ticks)).map (·.1)).Nodup
  closed : ∀ n ∈ (alertTicks config ticks).notices, n.type = .closed →
    n.sentOn ∈ ticks ∧ ∃ a ∈ config.cards, ∃ closeDay month, a.account.closeDay = some closeDay ∧
      n.accountId = a.id ∧ n.closeDate = onMonth month closeDay ∧ ClosedLast closeDay month n.sentOn ∧
      a.createdOn < n.closeDate
  /-- A close is told when a tick falls from it to the day before the next. -/
  told : ∀ a ∈ config.cards, ∀ closeDay month, a.account.closeDay = some closeDay →
    a.createdOn < onMonth month closeDay → ∀ today ∈ ticks, ClosedLast closeDay month today →
    TickInCalendar config today →
    ∃ n ∈ (alertTicks config ticks).notices, n.type = .closed ∧ n.accountId = a.id ∧
      n.closeDate = onMonth month closeDay
  /-- No close is reminded of twice, and none but within the lead before it. -/
  remindedOnce : ((noticeLog .reminder (alertTicks config ticks)).map (·.1)).Nodup
  reminded : ∀ n ∈ (alertTicks config ticks).notices, n.type = .reminder →
    n.sentOn ∈ ticks ∧ ∃ a ∈ config.cards, ∃ closeDay month, a.account.closeDay = some closeDay ∧
      n.accountId = a.id ∧ n.closeDate = onMonth month closeDay ∧ n.sentOn < n.closeDate ∧
      n.closeDate ≤ n.sentOn + ccStatementLeadDays config.leadSetting

theorem closedOf_returns {today : Int} (htick : TickInCalendar config today) {a : CardAccount} (ha : a ∈ config.cards) :
    ∃ o, closedOf a today = .ok o := by
  obtain ⟨closeDay, hcard, hclose, hpayment⟩ := AlertConfig.mem_cards ha
  obtain ⟨month, hlast⟩ := exists_closedLast hclose today
  unfold closedOf
  rw [mostRecentClosedCycle_eq hcard hclose hpayment hlast, if_pos (htick.cycles a ha closeDay month hcard hlast)]
  exact ⟨_, rfl⟩

theorem close_told {a : CardAccount} (ha : a ∈ config.cards) {closeDay : Nat} {month : Int}
    (hcard : a.account.closeDay = some closeDay) (hnew : a.createdOn < onMonth month closeDay) {ticks : List Int}
    {today : Int} (htoday : today ∈ ticks) (hlast : ClosedLast closeDay month today)
    (htick : TickInCalendar config today) :
    ∃ n ∈ (alertTicks config ticks).notices, n.type = .closed ∧ n.accountId = a.id ∧
      n.closeDate = onMonth month closeDay := by
  obtain ⟨closeDay', hcard', hclose, hpayment⟩ := AlertConfig.mem_cards ha
  obtain rfl : closeDay = closeDay' := Option.some.inj (hcard.symm.trans hcard')
  have hfind : closedOf a today = .ok (some
      { accountId := a.id, accountName := a.account.name, closeDate := onMonth month closeDay }) := by
    unfold closedOf
    rw [mostRecentClosedCycle_eq hcard hclose hpayment hlast, if_pos (htick.cycles a ha closeDay month hcard hlast),
      if_neg (not_le.mpr hnew)]
    rfl
  have hkey := candidates_of_found htick.lookback (fun b hb => closedOf_returns htick hb) ha hfind
  exact @notice_of_candidate config .closed ticks today htoday _ hkey

theorem alertedOnce (config : AlertConfig) {ticks : List Int} (hticks : ticks.Pairwise (· ≤ ·)) :
    AlertedOnce config ticks where
  closedOnce := @noticeLog_nodup config .closed closedOf_named closedOf_near _ hticks
  closed n hn htype := by
    obtain ⟨hday, hk⟩ := candidate_of_notice hn htype
    obtain ⟨a, ha, closeDay, month, hcard, -, hkey, hlast, hnew⟩ := closed_of_candidate hk
    obtain ⟨hid, hdate⟩ := Prod.mk.inj hkey
    exact ⟨hday, a, ha, closeDay, month, hcard, hid, hdate, hlast, hdate ▸ hnew⟩
  told a ha closeDay month hcard hnew today htoday hlast htick := close_told ha hcard hnew htoday hlast htick
  remindedOnce := @noticeLog_nodup config .reminder reminderOf_named reminderOf_near _ hticks
  reminded n hn htype := by
    obtain ⟨hday, hk⟩ := candidate_of_notice hn htype
    obtain ⟨a, ha, closeDay, month, hcard, -, hkey, hahead, hwithin⟩ := reminded_of_candidate hk
    obtain ⟨hid, hdate⟩ := Prod.mk.inj hkey
    exact ⟨hday, a, ha, closeDay, month, hcard, hid, hdate, hdate ▸ hahead, hdate ▸ hwithin⟩

/-- What it is for the last close to be found. -/
def FindsLastClose (card : CardAccount) : Prop :=
  ∀ closeDay month today, card.account.closeDay = some closeDay → ClosedLast closeDay month today →
    mostRecentClosedCycle card today =
      if CyclesInCalendar card.account closeDay month today then
        .ok (if onMonth month closeDay ≤ card.createdOn then none else some (cardCycle card.account closeDay month))
      else .error .overflow

/-- **Each statement of each card is alerted once**, and reminded of once at most, as far as
the calendar has its cycles. -/
theorem statements_alerted_once (config : AlertConfig) (ticks : List Int) (hticks : ticks.Pairwise (· ≤ ·)) :
    (∀ card ∈ config.cards, FindsLastClose card) ∧ AlertedOnce config ticks := by
  refine ⟨fun card hmem closeDay month today hcard hlast => ?_, alertedOnce config hticks⟩
  obtain ⟨closeDay', hcard', hclose, hpayment⟩ := AlertConfig.mem_cards hmem
  obtain rfl : closeDay = closeDay' := Option.some.inj (hcard.symm.trans hcard')
  exact mostRecentClosedCycle_eq hcard hclose hpayment hlast

end Config

/-- A card that is paid in the month it closes in. -/
def cardClosing (closeDay paymentDay : Nat) (createdOn : Int) : CardAccount where
  id := 1
  account := { orgId := 1, name := "Visa", slug := .creditCard, closeDay := some closeDay,
               paymentDay := some paymentDay, paymentDayRelativeMonth := some 0 }
  createdOn := createdOn

def oneCard (closeDay paymentDay : Nat) (createdOn : Int) (hclose : 1 ≤ closeDay) (hpayment : 1 ≤ paymentDay) :
    AlertConfig where
  orgId := 1
  accounts := [cardClosing closeDay paymentDay createdOn]
  ids := List.nodup_singleton _
  closeDays a ha := by
    obtain rfl := List.mem_singleton.mp ha
    exact hclose
  paymentDays a ha := by
    obtain rfl := List.mem_singleton.mp ha
    exact hpayment

/-- Two ticks on the last of February 2025, and one on 30 March. -/
theorem statements_alerted_once_february :
    AlertedOnce (oneCard 30 31 738900 (by decide) (by decide)) [739310, 739310, 739340] ∧
      ClosedLast 30 24301 739310 ∧ ClosedLast 30 24302 739340 :=
  ⟨(statements_alerted_once _ _ (by decide)).2, by decide +kernel, by decide +kernel⟩

/-- On 10 December 9999 the close of the 5th is the last, but the next lies in the year
10000: the resolver raises, and the close is not told. -/
theorem last_close_not_told :
    ¬ ∀ (config : AlertConfig) (ticks : List Int), ticks.Pairwise (· ≤ ·) →
      ∀ a ∈ config.cards, ∀ closeDay month, a.account.closeDay = some closeDay →
        a.createdOn < onMonth month closeDay → ∀ today ∈ ticks, 1 ≤ today → today ≤ dateMax →
        ClosedLast closeDay month today →
        mostRecentClosedCycle a today = .ok (some (cardCycle a.account closeDay month)) ∧
          ∃ n ∈ (alertTicks config ticks).notices, n.type = .closed ∧ n.accountId = a.id ∧
            n.closeDate = onMonth month closeDay := by
  intro h
  have hcard : cardClosing 5 10 3650000 ∈ (oneCard 5 10 3650000 (by decide) (by decide)).cards :=
    List.mem_filter.mpr ⟨List.mem_cons_self, by decide⟩
  obtain ⟨-, n, hn, -⟩ := h _ [onMonth 119999 10] (List.pairwise_singleton _ _) _ hcard 5 119999 rfl
    (by decide +kernel) (onMonth 119999 10) List.mem_cons_self (by decide +kernel) (by decide +kernel)
    (by decide +kernel)
  have hnone : (alertTicks (oneCard 5 10 3650000 (by decide) (by decide)) [onMonth 119999 10]).notices = [] := by
    decide +kernel
  rw [hnone] at hn
  cases hn

end BetterDecision
