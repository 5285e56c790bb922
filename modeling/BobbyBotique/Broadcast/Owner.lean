import BobbyBotique.Broadcast.Journal

/-!
# The owner of one delivery

A helper sends through the owner as often as it likes and may catch whatever
the owner raises.  Every send is journaled before and after, and a send whose
fate is unknown closes the owner for good.  The helper, the bot, the journal
and the checkpoints are arbitrary; the trace records what they did.
-/

namespace BobbyBotique.Broadcast

/-- What a helper may raise, or see raised by a send. -/
inductive Raised where
  /-- `JobCancelRequested` or `JobOwnershipLost`. -/
  | stopped (reasonCode : String)
  /-- `DeliveryQuarantined`. -/
  | quarantined (reasonCode : String)
  | other
  deriving DecidableEq, Repr

inductive Checkpoint where
  | passes
  | stops (reasonCode : String)
  | fails
  deriving DecidableEq, Repr

/-- `start_attempt`; the cancellation of the task is no `Exception`. -/
inductive StartAnswer where
  | started
  | refused
  | fails
  | interrupted
  deriving DecidableEq, Repr

/-- What the bot does with a send; the wait of a rate limit may be no number. -/
inductive BotAnswer where
  | receipt (messageId : Int)
  | noReceipt
  | retryAfter (seconds : Option Rat)
  | rejected (unreachable : Bool)
  | fails
  deriving DecidableEq, Repr

inductive FinishAnswer where
  | confirmed
  | unconfirmed
  | fails
  deriving DecidableEq, Repr

/-- What surrounds one turn of the loop of `_send`. -/
structure Transmission where
  checkpoint : Checkpoint
  start : StartAnswer
  recheck : Checkpoint
  answer : BotAnswer
  finish : FinishAnswer
  sleeps : Bool

inductive Event where
  | sent (answer : BotAnswer)
  | unjournaled
  deriving DecidableEq, Repr

namespace Event

def isSend : Event → Bool
  | .sent _ => true
  | .unjournaled => false

def isConfirmed : Event → Bool
  | .sent (.receipt _) => true
  | _ => false

/-- The send ended ambiguously or without a receipt, or its result was not journaled. -/
def isUncertain : Event → Bool
  | .sent .fails => true
  | .sent .noReceipt => true
  | .unjournaled => true
  | _ => false

end Event

structure DeliveryOwner where
  sequence : Nat := 0
  receipts : List Int := []
  result : Option DeliveryResult := none
  quarantined : Bool := false
  trace : List Event := []

/-- How a turn of the loop ends. -/
inductive Turn where
  | returned (messageId : Int)
  | again
  | raised (raised : Raised)

namespace DeliveryOwner

def settle (owner : DeliveryOwner) (outcome reasonCode : String) (retryable : Bool := false)
    (messageId : Option Int := none) : DeliveryOwner :=
  { owner with result := some ⟨outcome, reasonCode, retryable, messageId⟩ }

def quarantine (owner : DeliveryOwner) (reasonCode : String) : DeliveryOwner :=
  { owner.settle "unknown_delivery" reasonCode with quarantined := true }

/-- `_persist`, and then the end of the turn. -/
def persist (owner : DeliveryOwner) (finish : FinishAnswer) (turn : Turn) :
    DeliveryOwner × Turn :=
  match finish with
  | .confirmed => (owner, turn)
  | _ =>
    ({ owner.quarantine "journal_commit_unconfirmed" with
        trace := owner.trace ++ [.unjournaled] },
      .raised (.quarantined "journal_commit_unconfirmed"))

/-- The call of the bot and what follows it; only the first turn is repeated. -/
def transmit (owner : DeliveryOwner) (first : Bool) (turn : Transmission) :
    DeliveryOwner × Turn :=
  let owner := { owner with trace := owner.trace ++ [.sent turn.answer] }
  match turn.answer with
  | .retryAfter none => (owner, .raised .other)
  | .retryAfter (some seconds) =>
    (owner.settle "failed" "telegram_rate_limited" true).persist turn.finish
      (if first = true ∧ 0 ≤ seconds ∧ seconds ≤ 60 ∧ turn.sleeps = true then .again
      else .raised .other)
  | .rejected unreachable =>
    (owner.settle "failed"
      (if unreachable then "recipient_unreachable" else "telegram_rejected")).persist
      turn.finish (.raised .other)
  | .fails =>
    (owner.quarantine "telegram_send_unconfirmed").persist turn.finish (.raised .other)
  | .noReceipt =>
    (owner.quarantine "telegram_receipt_missing").persist turn.finish
      (.raised (.quarantined "telegram_receipt_missing"))
  | .receipt messageId =>
    ({ owner with receipts := owner.receipts ++ [messageId] }.settle "sent"
      "telegram_confirmed" false (some messageId)).persist turn.finish (.returned messageId)

/-- One turn of the loop of `_send`. -/
def attempt (owner : DeliveryOwner) (first : Bool) (turn : Transmission) :
    DeliveryOwner × Turn :=
  if owner.quarantined then (owner, .raised (.quarantined "delivery_unconfirmed"))
  else
    match turn.checkpoint with
    | .stops reasonCode => (owner.settle "skipped" reasonCode, .raised (.stopped reasonCode))
    | .fails => (owner, .raised .other)
    | .passes =>
      let owner := { owner with sequence := owner.sequence + 1 }
      match turn.start with
      | .fails => (owner.settle "failed" "journal_start_unavailable" true, .raised .other)
      | .interrupted => (owner, .raised .other)
      | .refused =>
        (owner.quarantine "recipient_ownership_lost",
          .raised (.quarantined "recipient_ownership_lost"))
      | .started =>
        match turn.recheck with
        | .stops reasonCode =>
          (owner.settle "skipped" "cancel_requested").persist turn.finish
            (.raised (.stopped reasonCode))
        | .fails => (owner, .raised .other)
        | .passes => owner.transmit first turn

/-- `_send`: at most two turns. -/
def send (owner : DeliveryOwner) (first second : Transmission) :
    DeliveryOwner × Except Raised Int :=
  match owner.attempt true first with
  | (owner, .returned messageId) => (owner, .ok messageId)
  | (owner, .raised raised) => (owner, .error raised)
  | (owner, .again) =>
    match owner.attempt false second with
    | (owner, .returned messageId) => (owner, .ok messageId)
    | (owner, .raised raised) => (owner, .error raised)
    | (owner, .again) => (owner, .error .other)

end DeliveryOwner

/-- A helper: it sends, looks at the answer and goes on, until it returns or raises. -/
inductive Helper where
  | ends (raised : Option Raised)
  | sends (next : Except Raised Int → Helper)

/-- The run of a helper; `world` surrounds the turns of its sends. -/
def Helper.run (world : Nat → Transmission × Transmission) :
    Helper → Nat → DeliveryOwner → DeliveryOwner × Option Raised
  | .ends raised, _, owner => (owner, raised)
  | .sends next, count, owner =>
    let (owner, answer) := owner.send (world count).1 (world count).2
    (next answer).run world (count + 1) owner

namespace DeliveryOwner

/-- What `deliver` makes of an exception of the helper. -/
def close (owner : DeliveryOwner) : Option Raised → DeliveryOwner
  | none => owner
  | some (.stopped _) =>
    if owner.result.isNone then owner.settle "skipped" "cancel_requested" else owner
  | some _ =>
    if owner.result.isNone then owner.settle "failed" "preparation_failed" true else owner

/-- The result that `deliver` returns. -/
def report (owner : DeliveryOwner) : DeliveryResult :=
  if owner.quarantined then
    owner.result.getD ⟨"unknown_delivery", "telegram_send_unconfirmed", false, none⟩
  else
    match owner.receipts.getLast? with
    | some messageId =>
      if owner.result.any fun result => result.outcome != "sent" then
        ⟨"unknown_delivery", "partial_delivery", false, none⟩
      else ⟨"sent", "telegram_confirmed", false, some messageId⟩
    | none => owner.result.getD ⟨"failed", "preparation_failed", true, none⟩

/-- `deliver`: the owner it leaves, and its result. -/
def deliver (helper : Helper) (world : Nat → Transmission × Transmission) :
    DeliveryOwner × DeliveryResult :=
  let (owner, raised) := helper.run world 0 {}
  let owner := owner.close raised
  (owner, owner.report)

/-! ## The quarantine -/

/-- No send follows an uncertain event. -/
def Quiet (trace : List Event) : Prop :=
  trace.Pairwise fun earlier later => earlier.isUncertain = true → later.isSend = false

/-- What holds of an owner between any two of its actions. -/
structure Sound (owner : DeliveryOwner) : Prop where
  quiet : Quiet owner.trace
  closed : ∀ event ∈ owner.trace, event.isUncertain = true → owner.quarantined = true
  unknown : owner.quarantined = true → ∃ reasonCode,
    owner.result = some ⟨"unknown_delivery", reasonCode, false, none⟩
  receipted : ∀ event ∈ owner.trace, event.isConfirmed = true → owner.receipts ≠ []

namespace Sound

variable {owner : DeliveryOwner}

theorem initial : Sound {} where
  quiet := List.Pairwise.nil
  closed := fun _ member => nomatch member
  unknown := fun impossible => nomatch impossible
  receipted := fun _ member => nomatch member

/-- An open owner may count its attempts and settle for any result. -/
theorem settle (sound : owner.Sound) (running : owner.quarantined = false) (sequence : Nat)
    (outcome reasonCode : String) (retryable : Bool) :
    ({ owner with sequence }.settle outcome reasonCode retryable).Sound where
  quiet := sound.quiet
  closed := sound.closed
  unknown := fun impossible => absurd (running.symm.trans impossible) Bool.false_ne_true
  receipted := sound.receipted

theorem count (sound : owner.Sound) (sequence : Nat) : { owner with sequence }.Sound where
  quiet := sound.quiet
  closed := sound.closed
  unknown := sound.unknown
  receipted := sound.receipted

theorem quarantine (sound : owner.Sound) (reasonCode : String) :
    (owner.quarantine reasonCode).Sound where
  quiet := sound.quiet
  closed := fun _ _ _ => rfl
  unknown := fun _ => ⟨reasonCode, rfl⟩
  receipted := sound.receipted

/-- A result that is not journaled closes the owner. -/
theorem persist (sound : owner.Sound) (finish : FinishAnswer) (turn : Turn) :
    (owner.persist finish turn).1.Sound := by
  have unjournaled : ({ owner.quarantine "journal_commit_unconfirmed" with
      trace := owner.trace ++ [.unjournaled] } : DeliveryOwner).Sound := by
    constructor
    · refine List.pairwise_append.mpr ⟨sound.quiet, List.pairwise_singleton _ _, ?_⟩
      intro earlier _ later member _
      rw [List.mem_singleton.mp member]
      rfl
    · exact fun _ _ _ => rfl
    · exact fun _ => ⟨_, rfl⟩
    · intro event member confirmed
      rcases List.mem_append.mp member with before | last
      · exact sound.receipted event before confirmed
      · rw [List.mem_singleton.mp last] at confirmed
        cases confirmed
  cases finish with
  | confirmed => exact sound
  | unconfirmed | fails => exact unjournaled

/-- A send of an open owner, with what its answer asks for. -/
theorem sent (sound : owner.Sound) (running : owner.quarantined = false) (answer : BotAnswer)
    {after : DeliveryOwner} (trace : after.trace = owner.trace ++ [.sent answer])
    (closed : (Event.sent answer).isUncertain = true → after.quarantined = true)
    (unknown : after.quarantined = true → ∃ reasonCode,
      after.result = some ⟨"unknown_delivery", reasonCode, false, none⟩)
    (kept : owner.receipts ≠ [] → after.receipts ≠ [])
    (receipted : (Event.sent answer).isConfirmed = true → after.receipts ≠ []) :
    after.Sound := by
  have certain : ∀ event ∈ owner.trace, event.isUncertain = true → False := by
    intro event member uncertain
    exact Bool.false_ne_true (running.symm.trans (sound.closed event member uncertain))
  constructor
  · rw [trace]
    refine List.pairwise_append.mpr ⟨sound.quiet, List.pairwise_singleton _ _, ?_⟩
    intro earlier member _ _ uncertain
    exact (certain earlier member uncertain).elim
  · intro event member uncertain
    rw [trace] at member
    rcases List.mem_append.mp member with before | last
    · exact (certain event before uncertain).elim
    · rw [List.mem_singleton.mp last] at uncertain
      exact closed uncertain
  · exact unknown
  · intro event member confirmed
    rw [trace] at member
    rcases List.mem_append.mp member with before | last
    · exact kept (sound.receipted event before confirmed)
    · rw [List.mem_singleton.mp last] at confirmed
      exact receipted confirmed

theorem transmit (sound : owner.Sound) (running : owner.quarantined = false) (first : Bool)
    (turn : Transmission) : (owner.transmit first turn).1.Sound := by
  have plain : ∀ result, turn.answer ≠ .fails → turn.answer ≠ .noReceipt →
      (Event.sent turn.answer).isConfirmed = false →
      ({ owner with trace := owner.trace ++ [.sent turn.answer], result } :
        DeliveryOwner).Sound := by
    intro result sure receipted unconfirmed
    refine sound.sent running turn.answer rfl ?_ ?_ id ?_
    · intro uncertain
      cases answer : turn.answer <;> rw [answer] at uncertain <;> first
        | exact absurd answer sure
        | exact absurd answer receipted
        | cases uncertain
    · exact fun impossible => absurd (running.symm.trans impossible) Bool.false_ne_true
    · exact fun confirmed => absurd (unconfirmed.symm.trans confirmed) Bool.false_ne_true
  unfold DeliveryOwner.transmit
  dsimp only
  split
  · next answer =>
      exact plain owner.result (by rw [answer]; simp) (by rw [answer]; simp) (by rw [answer]; rfl)
  · next seconds answer =>
      exact (plain _ (by rw [answer]; simp) (by rw [answer]; simp) (by rw [answer]; rfl)).persist ..
  · next unreachable answer =>
      exact (plain _ (by rw [answer]; simp) (by rw [answer]; simp) (by rw [answer]; rfl)).persist ..
  · next answer =>
      apply Sound.persist
      refine sound.sent running turn.answer rfl ?_ ?_ ?_ ?_
      · exact fun _ => rfl
      · exact fun _ => ⟨_, rfl⟩
      · exact fun kept => kept
      · rw [answer]
        exact fun impossible => nomatch impossible
  · next answer =>
      apply Sound.persist
      refine sound.sent running turn.answer rfl ?_ ?_ ?_ ?_
      · exact fun _ => rfl
      · exact fun _ => ⟨_, rfl⟩
      · exact fun kept => kept
      · rw [answer]
        exact fun impossible => nomatch impossible
  · next messageId answer =>
      refine Sound.persist (sound.sent running turn.answer rfl ?_ ?_ ?_ ?_) ..
      · rw [answer]
        exact fun impossible => nomatch impossible
      · exact fun impossible => absurd (running.symm.trans impossible) Bool.false_ne_true
      · exact fun _ => List.concat_ne_nil _ _
      · exact fun _ => List.concat_ne_nil _ _

theorem attempt (sound : owner.Sound) (first : Bool) (turn : Transmission) :
    (owner.attempt first turn).1.Sound := by
  unfold DeliveryOwner.attempt
  split
  · exact sound
  · next running =>
      have running := Bool.eq_false_of_not_eq_true running
      split
      · exact sound.settle running owner.sequence ..
      · exact sound
      · dsimp only
        split
        · exact sound.settle running ..
        · exact sound.count _
        · exact (sound.count _).quarantine _
        · split
          · exact (sound.settle running ..).persist ..
          · exact sound.count _
          · exact (sound.count (owner.sequence + 1)).transmit running first turn

theorem send (sound : owner.Sound) (first second : Transmission) :
    (owner.send first second).1.Sound := by
  have once := sound.attempt true first
  unfold DeliveryOwner.send
  cases attempted : owner.attempt true first with
  | mk next turn =>
    rw [attempted] at once
    cases turn with
    | returned | raised => exact once
    | again =>
      have twice := once.attempt false second
      dsimp only
      cases attempted : next.attempt false second with
      | mk last turn =>
        rw [attempted] at twice
        cases turn <;> exact twice

/-- Whatever the helper does, the owner stays sound. -/
theorem run (world : Nat → Transmission × Transmission) (helper : Helper) (count : Nat)
    (sound : owner.Sound) : (helper.run world count owner).1.Sound := by
  induction helper generalizing count owner with
  | ends raised => exact sound
  | sends next ih => exact ih _ _ (sound.send _ _)

/-- The result of a closed owner is settled already. -/
theorem close (sound : owner.Sound) (raised : Option Raised) : (owner.close raised).Sound := by
  have settled : ∀ outcome reasonCode retryable,
      (if owner.result.isNone then owner.settle outcome reasonCode retryable else owner).Sound := by
    intro outcome reasonCode retryable
    split
    · next unset =>
        refine sound.settle ?_ owner.sequence ..
        cases quarantined : owner.quarantined with
        | false => rfl
        | true =>
          obtain ⟨reason, set⟩ := sound.unknown quarantined
          rw [set] at unset
          cases unset
    · exact sound
  cases raised with
  | none => exact sound
  | some raised => cases raised <;> exact settled ..

end Sound

/--
For every helper and everything that surrounds it: nothing is sent after a send
that ended ambiguously, without a receipt or unjournaled, the delivery is then
reported as unknown, and a result that may be retried means that no send was
confirmed or uncertain.
-/
theorem deliver_quarantines (helper : Helper) (world : Nat → Transmission × Transmission) :
    Quiet (deliver helper world).1.trace ∧
      ((∃ event ∈ (deliver helper world).1.trace, event.isUncertain = true) →
        (deliver helper world).2.outcome = "unknown_delivery") ∧
      ((deliver helper world).2.retryable = true → ∀ event ∈ (deliver helper world).1.trace,
          event.isUncertain = false ∧ event.isConfirmed = false) := by
  have sound : (deliver helper world).1.Sound := (Sound.initial.run world helper 0).close _
  have reported : (deliver helper world).2 = (deliver helper world).1.report := rfl
  rw [reported]
  generalize (deliver helper world).1 = owner at sound
  refine ⟨sound.quiet, ?_, ?_⟩
  · rintro ⟨event, member, uncertain⟩
    have quarantined := sound.closed event member uncertain
    obtain ⟨reasonCode, result⟩ := sound.unknown quarantined
    rw [report, if_pos quarantined, result]
    rfl
  · intro retryable event member
    cases quarantined : owner.quarantined with
    | true =>
      obtain ⟨reasonCode, result⟩ := sound.unknown quarantined
      rw [report, if_pos quarantined, result] at retryable
      cases retryable
    | false =>
      have unsent : owner.receipts = [] := by
        cases last : owner.receipts.getLast? with
        | none => exact List.getLast?_eq_none_iff.mp last
        | some messageId =>
          rw [report, if_neg (by simp [quarantined]), last] at retryable
          dsimp only at retryable
          split at retryable <;> cases retryable
      constructor
      · refine Bool.eq_false_of_not_eq_true fun uncertain => ?_
        exact Bool.false_ne_true (quarantined.symm.trans (sound.closed event member uncertain))
      · refine Bool.eq_false_of_not_eq_true fun confirmed => ?_
        exact sound.receipted event member confirmed unsent

end DeliveryOwner

end BobbyBotique.Broadcast
