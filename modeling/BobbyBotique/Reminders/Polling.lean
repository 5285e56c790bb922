import Mathlib.Data.List.Induction
import Mathlib.Data.List.Nodup

/-!
# Delivery of due reminders

`check_and_deliver_reminders` takes the first fifty pending reminders in the order of
`trigger_at` and marks those delivered that went out.  Those that fail are taken again.
-/

namespace BobbyBotique.Reminders

/-- What `context_history` reads as; a text is parsed first. -/
inductive Context where
  | absent
  | mapping (isAi : Bool)
  | unreadable
  | textOf (isAi : Bool)
  | textOfOther

structure Reminder where
  id : Nat
  userId : Nat
  prompt : List Char
  context : Context
  triggerAt : Int

/-- Whether a reminder is for the AI; a text that is no object has no `get`. -/
def isAi : Context → Option Bool
  | .absent => some false
  | .mapping isAi => some isAi
  | .unreadable => some false
  | .textOf isAi => some isAi
  | .textOfOther => none

/-- How `_process_single_reminder` ends. -/
inductive Outcome where
  | raised
  | dispatched
  | sent
  | refused
  deriving DecidableEq

/-- Due reminders in the order of the index on `trigger_at`. -/
structure Backlog where
  since : Int
  rows : List Reminder
  ordered : rows.Pairwise fun first second => first.triggerAt ≤ second.triggerAt
  due : ∀ reminder ∈ rows, reminder.triggerAt ≤ since
  distinct : (rows.map Reminder.id).Nodup

/-- The ids that are marked, and those that went out or were handed to a task of their own. -/
structure Poller where
  delivered : List Nat
  sent : List Nat

section

variable (sends : Reminder → Bool)

def processSingleReminder (reminder : Reminder) : Outcome :=
  match isAi reminder.context with
  | none => .raised
  | some true => .dispatched
  | some false => if sends reminder then .sent else .refused

/-- A reminder that goes out is marked, and no other. -/
def goesOut (reminder : Reminder) : Bool :=
  match processSingleReminder sends reminder with
  | .dispatched | .sent => true
  | .raised | .refused => false

def pollLimit : Nat := 50

/-- `get_pending_reminders`. -/
def getPendingReminders (backlog : Backlog) (now : Int) (poller : Poller) : List Reminder :=
  (backlog.rows.filter fun reminder =>
    decide (reminder.triggerAt ≤ now) && !poller.delivered.contains reminder.id).take pollLimit

/-- `check_and_deliver_reminders`, so long after the last reminder became due. -/
def checkAndDeliver (backlog : Backlog) (poller : Poller) (delay : Nat) : Poller :=
  let pending := getPendingReminders backlog (backlog.since + delay) poller
  let gone := (pending.filter (goesOut sends)).map Reminder.id
  ⟨poller.delivered ++ gone, poller.sent ++ gone⟩

/-- What polls leave, given their delays. -/
def afterPolls (backlog : Backlog) (delays : List Nat) : Poller :=
  delays.foldl (checkAndDeliver sends backlog) ⟨[], []⟩

/-- The number of polls that take all reminders of a backlog if none fails. -/
def enoughPolls (backlog : Backlog) : Nat := (backlog.rows.length + pollLimit - 1) / pollLimit

/-- Each reminder whose send succeeds goes out exactly once, and in time. -/
structure DeliversAll (backlog : Backlog) : Prop where
  inTime : ∀ delays : List Nat, enoughPolls backlog ≤ delays.length → ∀ reminder ∈ backlog.rows,
    sends reminder = true → (afterPolls sends backlog delays).sent.count reminder.id = 1
  atMostOnce : ∀ delays : List Nat, ∀ reminder ∈ backlog.rows,
    (afterPolls sends backlog delays).sent.count reminder.id ≤ 1

/-- How many reminders the polls have come to: each takes the stuck ones of these again. -/
def reach (rows : List Reminder) : Nat → Nat
  | 0 => 0
  | polls + 1 =>
    let before := reach rows polls
    before + (pollLimit - (rows.take before).countP fun reminder => !goesOut sends reminder)

/-- The reminders that succeed can be read and are come to in time. -/
def Roomy (backlog : Backlog) : Prop :=
  ∀ place reminder, backlog.rows[place]? = some reminder → sends reminder = true →
    isAi reminder.context ≠ none ∧ place < reach sends backlog.rows (enoughPolls backlog)

end

section

variable {sends : Reminder → Bool} {backlog : Backlog}

theorem goesOut_of_sends {reminder : Reminder} (readable : isAi reminder.context ≠ none)
    (succeeds : sends reminder = true) : goesOut sends reminder = true := by
  unfold goesOut processSingleReminder
  cases read : isAi reminder.context with
  | none => exact absurd read readable
  | some ai =>
    cases ai with
    | true => rfl
    | false => simp only [succeeds, if_true]

theorem readable_of_goesOut {reminder : Reminder} (gone : goesOut sends reminder = true) :
    isAi reminder.context ≠ none := by
  intro unreadable
  unfold goesOut processSingleReminder at gone
  rw [unreadable] at gone
  cases gone

theorem reach_mono (rows : List Reminder) {first second : Nat} (less : first ≤ second) :
    reach sends rows first ≤ reach sends rows second := by
  induction less with
  | refl => exact Nat.le_refl _
  | step _ ih => exact Nat.le_trans ih (Nat.le_add_right ..)

/-- The reminders that went out among the first ones. -/
def goneOf (sends : Reminder → Bool) (rows : List Reminder) (count : Nat) : List Nat :=
  ((rows.take count).filter (goesOut sends)).map Reminder.id

/-- A reminder of the backlog is in a list of marked ones only by itself. -/
theorem mem_goneOf {count : Nat} {reminder : Reminder} (member : reminder ∈ backlog.rows) :
    reminder.id ∈ goneOf sends backlog.rows count ↔
      reminder ∈ backlog.rows.take count ∧ goesOut sends reminder = true := by
  unfold goneOf
  rw [List.mem_map]
  constructor
  · rintro ⟨other, listed, same⟩
    obtain ⟨among, gone⟩ := List.mem_filter.mp listed
    cases List.inj_on_of_nodup_map backlog.distinct (List.mem_of_mem_take among) member same
    exact ⟨among, gone⟩
  · rintro ⟨among, gone⟩
    exact ⟨reminder, List.mem_filter.mpr ⟨among, gone⟩, rfl⟩

/-- What is pending: the stuck reminders among those come to, and all behind them. -/
theorem pending_eq (count delay : Nat) (sent : List Nat) :
    getPendingReminders backlog (backlog.since + delay) ⟨goneOf sends backlog.rows count, sent⟩ =
      ((backlog.rows.take count).filter (fun reminder => !goesOut sends reminder) ++
        backlog.rows.drop count).take pollLimit := by
  have now : ∀ reminder ∈ backlog.rows,
      decide (reminder.triggerAt ≤ backlog.since + (delay : Int)) = true := by
    intro reminder member
    have bound := backlog.due reminder member
    exact decide_eq_true (by omega)
  have apart : ∀ reminder ∈ backlog.rows.drop count, reminder ∉ backlog.rows.take count := by
    intro reminder behind front
    have nodup := backlog.distinct.of_map
    rw [← List.take_append_drop count backlog.rows] at nodup
    exact (List.nodup_append.mp nodup).2.2 reminder front reminder behind rfl
  unfold getPendingReminders
  congr 1
  conv_lhs => rw [← List.take_append_drop count backlog.rows]
  rw [List.filter_append]
  congr 1
  · refine List.filter_congr fun reminder front => ?_
    have member := List.mem_of_mem_take front
    have marked := @mem_goneOf sends backlog count reminder member
    rw [List.take_append_drop, now reminder member, Bool.true_and]
    refine congrArg (! ·) (Bool.eq_iff_iff.mpr ?_)
    rw [List.contains_iff_mem, marked]
    exact ⟨And.right, fun gone => ⟨front, gone⟩⟩
  · refine List.filter_eq_self.mpr fun reminder behind => ?_
    have member := List.mem_of_mem_drop behind
    rw [List.take_append_drop, now reminder member, Bool.true_and]
    rw [Bool.not_eq_true', ← Bool.not_eq_true, List.contains_iff_mem, mem_goneOf member]
    exact fun marked => apart reminder behind marked.1

/-- One poll takes the stuck reminders again and comes to as many new ones as there is room. -/
theorem checkAndDeliver_reach {count : Nat} (delay : Nat)
    (room : (backlog.rows.take count).countP (fun reminder => !goesOut sends reminder) ≤
      pollLimit) :
    let gone := goneOf sends backlog.rows count
    let further := goneOf sends backlog.rows (count + (pollLimit -
      (backlog.rows.take count).countP fun reminder => !goesOut sends reminder))
    checkAndDeliver sends backlog ⟨gone, gone⟩ delay = ⟨further, further⟩ := by
  have news : ((getPendingReminders backlog (backlog.since + delay)
        ⟨goneOf sends backlog.rows count, goneOf sends backlog.rows count⟩).filter
          (goesOut sends)).map Reminder.id =
      (((backlog.rows.drop count).take (pollLimit - (backlog.rows.take count).countP
        fun reminder => !goesOut sends reminder)).filter (goesOut sends)).map Reminder.id := by
    rw [pending_eq, List.take_append, List.take_of_length_le
      (by rw [← List.countP_eq_length_filter]; exact room), List.filter_append,
      ← List.countP_eq_length_filter, List.filter_filter, List.filter_eq_nil_iff.mpr]
    · rfl
    · intro reminder _
      cases goesOut sends reminder <;> decide
  have joined : goneOf sends backlog.rows count ++
      (((backlog.rows.drop count).take (pollLimit - (backlog.rows.take count).countP
        fun reminder => !goesOut sends reminder)).filter (goesOut sends)).map Reminder.id =
      goneOf sends backlog.rows (count + (pollLimit -
        (backlog.rows.take count).countP fun reminder => !goesOut sends reminder)) := by
    unfold goneOf
    rw [List.take_add, List.filter_append, List.map_append]
  unfold checkAndDeliver
  dsimp only
  rw [news, joined]

/-- The stuck reminders that were come to fit into one poll. -/
theorem stuck_le (rows : List Reminder) (polls : Nat) :
    (rows.take (reach sends rows polls)).countP (fun reminder => !goesOut sends reminder) ≤
      pollLimit := by
  induction polls with
  | zero => exact Nat.zero_le _
  | succ polls ih =>
    rw [reach, List.take_add, List.countP_append]
    have few := Nat.le_trans (List.countP_le_length (p := fun r => !goesOut sends r)
      (l := (rows.drop (reach sends rows polls)).take (pollLimit -
        (rows.take (reach sends rows polls)).countP fun reminder => !goesOut sends reminder)))
      (List.length_take_le ..)
    omega

theorem afterPolls_eq (delays : List Nat) : afterPolls sends backlog delays =
    ⟨goneOf sends backlog.rows (reach sends backlog.rows delays.length),
      goneOf sends backlog.rows (reach sends backlog.rows delays.length)⟩ := by
  induction delays using List.reverseRecOn with
  | nil => rfl
  | append_singleton front last ih =>
    unfold afterPolls at ih ⊢
    rw [List.foldl_append, ih, List.length_append]
    exact checkAndDeliver_reach last (stuck_le ..)

/-- A reminder has gone out once or not at all. -/
theorem count_sent (delays : List Nat) {reminder : Reminder} (member : reminder ∈ backlog.rows) :
    (afterPolls sends backlog delays).sent.count reminder.id ≤ 1 ∧
      ((afterPolls sends backlog delays).sent.count reminder.id = 1 ↔
        reminder ∈ backlog.rows.take (reach sends backlog.rows delays.length) ∧
          goesOut sends reminder = true) := by
  rw [afterPolls_eq, ← mem_goneOf member]
  have nodup : (goneOf sends backlog.rows (reach sends backlog.rows delays.length)).Nodup :=
    backlog.distinct.sublist ((List.filter_sublist.trans (List.take_sublist ..)).map _)
  refine ⟨List.nodup_iff_count_le_one.mp nodup _, ?_⟩
  rw [← List.count_pos_iff]
  dsimp only
  have most := List.nodup_iff_count_le_one.mp nodup reminder.id
  omega

theorem mem_take_iff {place count : Nat} {reminder : Reminder}
    (found : backlog.rows[place]? = some reminder) :
    reminder ∈ backlog.rows.take count ↔ place < count := by
  obtain ⟨inside, rfl⟩ := List.getElem?_eq_some_iff.mp found
  constructor
  · intro member
    obtain ⟨other, bound, same⟩ := List.getElem_of_mem member
    rw [List.getElem_take] at same
    rw [List.length_take] at bound
    have place := (List.Nodup.getElem_inj_iff backlog.distinct.of_map).mp same
    omega
  · intro less
    exact List.mem_take_iff_getElem.mpr ⟨place, by omega, rfl⟩

end

/-- Every reminder whose send succeeds goes out in time exactly if the stuck ones leave room. -/
theorem reminders_delivered_iff (sends : Reminder → Bool) (backlog : Backlog) :
    DeliversAll sends backlog ↔ Roomy sends backlog := by
  constructor
  · intro all place reminder found succeeds
    have member := List.mem_of_getElem? found
    have once := all.inTime (List.replicate (enoughPolls backlog) 0)
      (Nat.le_of_eq List.length_replicate.symm) reminder member succeeds
    obtain ⟨among, gone⟩ := (count_sent _ member).2.mp once
    rw [List.length_replicate] at among
    exact ⟨readable_of_goesOut gone, (mem_take_iff found).mp among⟩
  · intro roomy
    constructor
    · intro delays enough reminder member succeeds
      obtain ⟨place, found⟩ := List.mem_iff_getElem?.mp member
      obtain ⟨readable, reached⟩ := roomy place reminder found succeeds
      refine (count_sent delays member).2.mpr ⟨(mem_take_iff found).mpr ?_,
        goesOut_of_sends readable succeeds⟩
      exact Nat.lt_of_lt_of_le reached (reach_mono _ enough)
    · exact fun delays reminder member => (count_sent delays member).1

/-- Fifty blocked users in front of one more. -/
def blockedFront : Backlog where
  since := 50
  rows := (List.range 51).map fun number => ⟨number, number, [], .absent, number⟩
  ordered := by
    rw [List.pairwise_map]
    exact List.pairwise_lt_range.imp fun less => Int.ofNat_le.mpr (Nat.le_of_lt less)
  due reminder member := by
    obtain ⟨number, listed, rfl⟩ := List.mem_map.mp member
    exact Int.ofNat_le.mpr (Nat.le_of_lt_succ (List.mem_range.mp listed))
  distinct := by
    rw [List.map_map]
    exact (List.map_id _).symm ▸ List.nodup_range

theorem last_reminder_starves :
    ¬DeliversAll (fun reminder => reminder.userId = 50) blockedFront := by
  intro all
  have once := all.inTime [0, 0] (by decide +kernel) ⟨50, 50, [], .absent, 50⟩
    (List.mem_map.mpr ⟨50, by decide, rfl⟩) (by decide)
  revert once
  decide +kernel

end BobbyBotique.Reminders
