import BobbyBotique.Broadcast.Owner

/-!
# Partial deliveries

What surrounds a send decides its verdict: it is confirmed, it fails and says so, it
breaks off without a word, or its fate is unknown.  The report of a delivery is read
off the verdicts of the sends that its helper made and of the way the helper ended.
-/

namespace BobbyBotique.Broadcast

inductive Verdict where
  | confirmed
  | failed
  /-- The send broke off and left the result of the owner as it was. -/
  | silent
  | uncertain
  deriving DecidableEq, Repr

namespace Transmission

/-- The verdict of a journaled result. -/
def settled (turn : Transmission) (verdict : Verdict) : Verdict :=
  match turn.finish with
  | .confirmed => verdict
  | _ => .uncertain

/-- The verdict of one turn, and whether another turn follows. -/
def verdict (turn : Transmission) (first : Bool) : Verdict × Bool :=
  match turn.checkpoint with
  | .stops _ => (.failed, false)
  | .fails => (.silent, false)
  | .passes =>
    match turn.start with
    | .fails => (.failed, false)
    | .interrupted => (.silent, false)
    | .refused => (.uncertain, false)
    | .started =>
      match turn.recheck with
      | .stops _ => (turn.settled .failed, false)
      | .fails => (.silent, false)
      | .passes =>
        match turn.answer with
        | .retryAfter none => (.silent, false)
        | .retryAfter (some seconds) =>
          (turn.settled .failed, decide (turn.finish = .confirmed ∧ first = true ∧
            0 ≤ seconds ∧ seconds ≤ 60 ∧ turn.sleeps = true))
        | .rejected _ => (turn.settled .failed, false)
        | .fails => (.uncertain, false)
        | .noReceipt => (.uncertain, false)
        | .receipt _ => (turn.settled .confirmed, false)

end Transmission

/-- A silent turn leaves the verdict of the turn before. -/
def Verdict.orLater (verdict : Verdict) : Verdict → Verdict
  | .silent => verdict
  | later => later

/-- The verdict of a send of an open owner. -/
def sendVerdict (turns : Transmission × Transmission) : Verdict :=
  match turns.1.verdict true with
  | (verdict, false) => verdict
  | (verdict, true) => verdict.orLater (turns.2.verdict false).1

/-- What surrounds the sends that the helper makes, in their order. -/
def Helper.made (world : Nat → Transmission × Transmission) :
    Helper → Nat → DeliveryOwner → List (Transmission × Transmission)
  | .ends _, _, _ => []
  | .sends next, count, owner =>
    let (owner, answer) := owner.send (world count).1 (world count).2
    world count :: (next answer).made world (count + 1) owner

/-- What a send with this verdict makes of an open owner. -/
def Verdict.Marks (before after : DeliveryOwner) : Verdict → Prop
  | .confirmed => after.quarantined = false ∧ after.receipts ≠ [] ∧
      after.result.any (fun result => result.outcome == "sent") = true
  | .failed => after.quarantined = false ∧ after.receipts = before.receipts ∧
      after.result.any (fun result => result.outcome != "sent") = true
  | .silent => after.quarantined = false ∧ after.receipts = before.receipts ∧
      after.result = before.result
  | .uncertain => after.quarantined = true

namespace DeliveryOwner

variable {owner : DeliveryOwner}

theorem persist_marks (before : DeliveryOwner) {turn : Transmission} {verdict : Verdict}
    (marks : verdict.Marks before owner) (ends : Turn) :
    (turn.settled verdict).Marks before (owner.persist turn.finish ends).1 := by
  unfold persist Transmission.settled
  cases turn.finish with
  | confirmed => exact marks
  | unconfirmed | fails => rfl

theorem persist_quarantined (quarantined : owner.quarantined = true) (finish : FinishAnswer)
    (ends : Turn) : (owner.persist finish ends).1.quarantined = true := by
  cases finish with
  | confirmed => exact quarantined
  | unconfirmed | fails => rfl

theorem attempt_marks (running : owner.quarantined = false) (first : Bool)
    (turn : Transmission) :
    (turn.verdict first).1.Marks owner (owner.attempt first turn).1 := by
  rw [attempt, if_neg (by rw [running]; decide), Transmission.verdict]
  cases turn.checkpoint with
  | stops | fails => exact ⟨running, rfl, rfl⟩
  | passes =>
    cases turn.start with
    | fails | interrupted => exact ⟨running, rfl, rfl⟩
    | refused => rfl
    | started =>
      cases turn.recheck with
      | stops reasonCode =>
        refine persist_marks owner ?_ _
        exact ⟨running, rfl, rfl⟩
      | fails => exact ⟨running, rfl, rfl⟩
      | passes =>
        dsimp only
        unfold transmit
        cases turn.answer with
        | retryAfter wait =>
          cases wait with
          | none => exact ⟨running, rfl, rfl⟩
          | some seconds =>
            refine persist_marks owner ?_ _
            exact ⟨running, rfl, rfl⟩
        | rejected unreachable =>
          refine persist_marks owner ?_ _
          cases unreachable with
          | true | false => exact ⟨running, rfl, rfl⟩
        | fails | noReceipt => exact persist_quarantined rfl _ _
        | receipt messageId =>
          refine persist_marks owner ?_ _
          exact ⟨running, List.concat_ne_nil _ _, rfl⟩

theorem persist_raised (finish : FinishAnswer) (raised : Raised) :
    (owner.persist finish (.raised raised)).2 ≠ .again := by
  cases finish with
  | confirmed | unconfirmed | fails => nofun

/-- Another turn follows exactly a journaled rate limit that is short enough. -/
theorem attempt_again (running : owner.quarantined = false) (first : Bool)
    (turn : Transmission) :
    if (turn.verdict first).2 then (turn.verdict first).1 = .failed ∧
      (owner.attempt first turn).2 = .again
    else (owner.attempt first turn).2 ≠ .again := by
  simp only [attempt, running, Bool.false_eq_true, if_false, Transmission.verdict]
  cases turn.checkpoint with
  | stops | fails => rintro ⟨⟩
  | passes =>
    cases turn.start with
    | fails | interrupted | refused => rintro ⟨⟩
    | started =>
      cases turn.recheck with
      | stops reasonCode => exact persist_raised _ _
      | fails => rintro ⟨⟩
      | passes =>
        dsimp only
        unfold transmit
        cases turn.answer with
        | retryAfter wait =>
          cases wait with
          | none => rintro ⟨⟩
          | some seconds =>
            dsimp only
            unfold Transmission.settled persist
            cases turn.finish with
            | confirmed =>
              by_cases short : first = true ∧ 0 ≤ seconds ∧ seconds ≤ 60 ∧ turn.sleeps = true
              · simp [short]
              · simp [short]
            | unconfirmed | fails => simp
        | rejected | fails | noReceipt => exact persist_raised _ _
        | receipt messageId =>
          dsimp only
          unfold persist
          cases turn.finish with
          | confirmed | unconfirmed | fails => rintro ⟨⟩

theorem marks_orLater {before after last : DeliveryOwner} {later : Verdict}
    (once : Verdict.failed.Marks before after) (twice : later.Marks after last) :
    (Verdict.failed.orLater later).Marks before last := by
  obtain ⟨running, receipts, result⟩ := once
  cases later with
  | confirmed => exact twice
  | failed => exact ⟨twice.1, twice.2.1.trans receipts, twice.2.2⟩
  | silent => exact ⟨twice.1, twice.2.1.trans receipts, twice.2.2.symm ▸ result⟩
  | uncertain => exact twice

theorem send_marks (running : owner.quarantined = false) (turns : Transmission × Transmission) :
    (sendVerdict turns).Marks owner (owner.send turns.1 turns.2).1 := by
  have once := attempt_marks running true turns.1
  have repeats := attempt_again running true turns.1
  unfold sendVerdict send
  generalize turns.1.verdict true = verdict at once repeats
  generalize owner.attempt true turns.1 = attempted at once repeats
  obtain ⟨verdict, again⟩ := verdict
  obtain ⟨after, turn⟩ := attempted
  cases again with
  | false =>
    cases turn with
    | returned | raised => exact once
    | again => exact absurd rfl repeats
  | true =>
    obtain ⟨rfl, rfl⟩ := repeats
    have last := marks_orLater once (attempt_marks once.1 false turns.2)
    dsimp only at last ⊢
    generalize after.attempt false turns.2 = attempted at last
    obtain ⟨final, turn⟩ := attempted
    cases turn with
    | returned | raised | again => exact last

/-! ## Reports -/

/-- The verdict of the last send that was not silent. -/
def spoken (verdicts : List Verdict) : Option Verdict :=
  (verdicts.filter fun verdict => verdict ≠ .silent).getLast?

/-- The result of the owner is the one of the last verdict that was spoken. -/
def Tells (result : Option DeliveryResult) : Option Verdict → Prop
  | none => result = none
  | some .confirmed => result.any (fun result => result.outcome == "sent") = true
  | some _ => result.any (fun result => result.outcome != "sent") = true

structure Reads (owner : DeliveryOwner) (verdicts : List Verdict) : Prop where
  uncertain : owner.quarantined = true ↔ .uncertain ∈ verdicts
  receipts : owner.quarantined = false → (owner.receipts ≠ [] ↔ .confirmed ∈ verdicts)
  result : owner.quarantined = false → Tells owner.result (spoken verdicts)

theorem reads_initial : Reads {} [] :=
  ⟨⟨nofun, nofun⟩, fun _ => ⟨fun some => absurd rfl some, nofun⟩, fun _ => rfl⟩

theorem spoken_silent (verdicts : List Verdict) :
    spoken (verdicts ++ [.silent]) = spoken verdicts := by
  simp [spoken]

theorem spoken_concat (verdicts : List Verdict) {verdict : Verdict} (loud : verdict ≠ .silent) :
    spoken (verdicts ++ [verdict]) = some verdict := by
  simp [spoken, List.filter_append, loud]

theorem send_quarantined (quarantined : owner.quarantined = true) (first second : Transmission) :
    (owner.send first second).1 = owner := by
  rw [send, attempt, if_pos quarantined]

theorem Reads.send {verdicts : List Verdict} (reads : Reads owner verdicts)
    (turns : Transmission × Transmission) :
    Reads (owner.send turns.1 turns.2).1 (verdicts ++ [sendVerdict turns]) := by
  cases quarantined : owner.quarantined with
  | true =>
    rw [send_quarantined quarantined]
    have known := reads.uncertain.mp quarantined
    refine ⟨⟨fun _ => List.mem_append_left _ known, fun _ => quarantined⟩, ?_, ?_⟩
    · exact fun open' => absurd (quarantined.symm.trans open') (by decide)
    · exact fun open' => absurd (quarantined.symm.trans open') (by decide)
  | false =>
    have marks := send_marks quarantined turns
    have before : .uncertain ∉ verdicts := by
      rw [← reads.uncertain, quarantined]
      decide
    have receipts := reads.receipts quarantined
    have result := reads.result quarantined
    generalize (owner.send turns.1 turns.2).1 = after at marks
    generalize sendVerdict turns = verdict at marks
    cases verdict with
    | confirmed =>
      obtain ⟨open', some, sent⟩ := marks
      refine ⟨by simp [open', before], fun _ => by simp [some], fun _ => ?_⟩
      rw [spoken_concat _ (by decide)]
      exact sent
    | failed =>
      obtain ⟨open', same, failed⟩ := marks
      refine ⟨by simp [open', before], fun _ => by simp [same, receipts], fun _ => ?_⟩
      rw [spoken_concat _ (by decide)]
      exact failed
    | silent =>
      obtain ⟨open', same, unchanged⟩ := marks
      refine ⟨by simp [open', before], fun _ => by simp [same, receipts], fun _ => ?_⟩
      rw [spoken_silent, unchanged]
      exact result
    | uncertain =>
      have closed : after.quarantined = true := marks
      refine ⟨by simp [closed], ?_, ?_⟩
      · exact fun open' => absurd (closed.symm.trans open') (by decide)
      · exact fun open' => absurd (closed.symm.trans open') (by decide)

theorem Reads.run (world : Nat → Transmission × Transmission) (helper : Helper) (count : Nat)
    {verdicts : List Verdict} (reads : Reads owner verdicts) :
    Reads (helper.run world count owner).1
      (verdicts ++ (helper.made world count owner).map sendVerdict) := by
  induction helper generalizing count owner verdicts with
  | ends raised =>
    rw [Helper.made, List.map_nil, List.append_nil]
    exact reads
  | sends next ih =>
    have later := ih (owner.send (world count).1 (world count).2).2 (count + 1)
      (reads.send (world count))
    rw [List.append_assoc, List.singleton_append] at later
    exact later

/-- The last send that says how it went is confirmed. -/
theorem spoken_confirmed {verdicts : List Verdict} :
    spoken verdicts = some .confirmed ↔
      ∃ before silents, verdicts = before ++ .confirmed :: silents ∧
        ∀ verdict ∈ silents, verdict = .silent := by
  induction verdicts using List.reverseRecOn with
  | nil => simp [spoken]
  | append_singleton verdicts last ih =>
    by_cases silent : last = .silent
    · rw [silent, spoken_silent, ih]
      constructor
      · rintro ⟨before, silents, rfl, all⟩
        refine ⟨before, silents ++ [.silent], by simp, ?_⟩
        exact List.forall_mem_append.mpr ⟨all, List.forall_mem_singleton.mpr rfl⟩
      · rintro ⟨before, silents, whole, all⟩
        cases silents using List.reverseRecOn with
        | nil => exact absurd (List.append_inj' whole rfl).2 (by decide)
        | append_singleton silents other =>
          rw [← List.cons_append, ← List.append_assoc] at whole
          obtain ⟨rest, -⟩ := List.append_inj' whole rfl
          exact ⟨before, silents, rest, fun verdict member =>
            all verdict (List.mem_append_left _ member)⟩
    · rw [spoken_concat _ silent]
      constructor
      · intro confirmed
        cases confirmed
        exact ⟨verdicts, [], rfl, nofun⟩
      · rintro ⟨before, silents, whole, all⟩
        cases silents using List.reverseRecOn with
        | nil =>
          have same := (List.append_inj' whole rfl).2
          rw [(List.cons.inj same).1]
        | append_singleton silents other =>
          rw [← List.cons_append, ← List.append_assoc] at whole
          have same := (List.append_inj' whole rfl).2
          have quiet := all other (List.mem_append_right _ List.mem_cons_self)
          exact absurd ((List.cons.inj same).1.trans quiet) silent

/-! ## Deliveries -/

/-- The verdicts of the sends of a delivery. -/
def verdicts (helper : Helper) (world : Nat → Transmission × Transmission) : List Verdict :=
  (helper.made world 0 {}).map sendVerdict

/--
A delivery is complete when its helper ended normally and a send was confirmed after every
send that was not; a helper that fails after a confirmed send leaves a partial delivery.
-/
structure Reported (helper : Helper) (world : Nat → Transmission × Transmission) : Prop where
  complete : (deliver helper world).2.outcome = "sent" → (helper.run world 0 {}).2 = none ∧
    ∀ before verdict after, verdicts helper world = before ++ verdict :: after →
      verdict = .confirmed ∨ .confirmed ∈ after
  partly : (helper.run world 0 {}).2 ≠ none → .confirmed ∈ verdicts helper world →
    (deliver helper world).2.outcome = "unknown_delivery"

/--
Nothing is uncertain, and after the last send that says how it went, a confirmed one, the
helper raises or sends without a word.
-/
def Loses (verdicts : List Verdict) (raised : Option Raised) : Prop :=
  .uncertain ∉ verdicts ∧ ∃ before silents, verdicts = before ++ .confirmed :: silents ∧
    (∀ verdict ∈ silents, verdict = .silent) ∧ (raised ≠ none ∨ silents ≠ [])

/-- A closed owner reports an unknown delivery. -/
theorem report_quarantined (sound : owner.Sound) (quarantined : owner.quarantined = true) :
    owner.report.outcome = "unknown_delivery" := by
  obtain ⟨reasonCode, result⟩ := sound.unknown quarantined
  rw [report, if_pos quarantined, result]
  rfl

theorem report_sent (running : owner.quarantined = false) (receipts : owner.receipts ≠ [])
    (sent : owner.result.any (fun result => result.outcome == "sent") = true) :
    owner.report.outcome = "sent" := by
  rw [report, if_neg (by simp [running])]
  cases last : owner.receipts.getLast? with
  | none => exact absurd (List.getLast?_eq_none_iff.mp last) receipts
  | some messageId =>
    cases result : owner.result with
    | none => simp [result] at sent
    | some result' =>
      rw [result] at sent
      simp only [Option.any_some, beq_iff_eq] at sent
      simp [sent]

/-- A result that is not confirmed makes the delivery partial once a message is out. -/
theorem report_failed (running : owner.quarantined = false)
    (failed : owner.result.any (fun result => result.outcome != "sent") = true) :
    owner.report.outcome ≠ "sent" ∧
      (owner.receipts ≠ [] → owner.report.outcome = "unknown_delivery") := by
  rw [report, if_neg (by simp [running])]
  cases last : owner.receipts.getLast? with
  | none =>
    refine ⟨?_, fun receipts => absurd (List.getLast?_eq_none_iff.mp last) receipts⟩
    cases result : owner.result with
    | none => simp [result] at failed
    | some result' => simpa [result] using failed
  | some messageId =>
    dsimp only
    rw [if_pos failed]
    exact ⟨by simp, fun _ => rfl⟩

/-- An owner that was told nothing reports what the end of the helper tells. -/
theorem report_untold (running : owner.quarantined = false) (receipts : owner.receipts = [])
    (untold : owner.result = none) (raised : Option Raised) :
    (owner.close raised).report.outcome ≠ "sent" := by
  cases raised with
  | none => simp [close, report, running, receipts, untold]
  | some raised =>
    cases raised with
    | stopped | quarantined | other => simp [close, report, settle, running, receipts, untold]

/-- A result that was told is kept by the end of the helper. -/
theorem close_told (told : owner.result ≠ none) (raised : Option Raised) :
    owner.close raised = owner := by
  cases result : owner.result with
  | none => exact absurd result told
  | some result' =>
    cases raised with
    | none => rfl
    | some raised =>
      cases raised with
      | stopped | quarantined | other => simp [close, result]

theorem told_of_any {result : Option DeliveryResult} {test : DeliveryResult → Bool}
    (holds : result.any test = true) : result ≠ none := by
  rintro rfl
  cases holds

theorem spoken_none {verdicts : List Verdict} (silent : spoken verdicts = none) :
    .confirmed ∉ verdicts := by
  intro confirmed
  rw [spoken, List.getLast?_eq_none_iff, List.filter_eq_nil_iff] at silent
  exact silent _ confirmed (by simp)

theorem spoken_mem {verdicts : List Verdict} {verdict : Verdict}
    (told : spoken verdicts = some verdict) : verdict ∈ verdicts ∧ verdict ≠ .silent := by
  have member := List.mem_of_getLast? told
  rw [List.mem_filter] at member
  exact ⟨member.1, by simpa using member.2⟩

/-- What the report of a delivery says, read off the verdicts. -/
theorem deliver_reads (helper : Helper) (world : Nat → Transmission × Transmission) :
    (.uncertain ∈ verdicts helper world → (deliver helper world).2.outcome = "unknown_delivery") ∧
      (.uncertain ∉ verdicts helper world → ((deliver helper world).2.outcome = "sent" ↔
          spoken (verdicts helper world) = some .confirmed) ∧
        (spoken (verdicts helper world) ≠ some .confirmed → .confirmed ∈ verdicts helper world →
          (deliver helper world).2.outcome = "unknown_delivery")) := by
  have reads : Reads (helper.run world 0 {}).1 (verdicts helper world) :=
    reads_initial.run world helper 0
  have sound := Sound.initial.run world helper 0
  have closed := sound.close (helper.run world 0 {}).2
  have reported : (deliver helper world).2 =
    ((helper.run world 0 {}).1.close (helper.run world 0 {}).2).report := rfl
  rw [reported]
  generalize (helper.run world 0 {}).2 = raised at *
  generalize (helper.run world 0 {}).1 = owner at *
  generalize verdicts helper world = verdicts at *
  constructor
  · intro uncertain
    have quarantined := reads.uncertain.mpr uncertain
    obtain ⟨reasonCode, result⟩ := sound.unknown quarantined
    rw [close_told (by rw [result]; nofun)]
    exact report_quarantined sound quarantined
  · intro certain
    have running : owner.quarantined = false := by
      refine Bool.eq_false_of_not_eq_true fun quarantined => ?_
      exact certain (reads.uncertain.mp quarantined)
    have receipts := reads.receipts running
    have result := reads.result running
    cases told : spoken verdicts with
    | none =>
      rw [told] at result
      have unconfirmed := spoken_none told
      have none' : owner.receipts = [] := by
        by_contra some
        exact unconfirmed (receipts.mp some)
      have unsent := report_untold running none' result raised
      exact ⟨by simp [unsent], fun _ confirmed => absurd confirmed unconfirmed⟩
    | some verdict =>
      rw [told] at result
      obtain ⟨member, loud⟩ := spoken_mem told
      cases verdict with
      | confirmed =>
        rw [close_told (told_of_any result)]
        have sent := report_sent running (receipts.mpr member) result
        exact ⟨by simp [sent], fun other => absurd rfl other⟩
      | failed =>
        rw [close_told (told_of_any result)]
        obtain ⟨unsent, partly⟩ := report_failed running result
        exact ⟨by simp [unsent], fun _ confirmed => partly (receipts.mpr confirmed)⟩
      | silent => exact absurd rfl loud
      | uncertain => exact absurd member certain

/--
Whatever the helper, the bot, the journal and the checkpoints do: the report of a delivery
tells a complete delivery from a partial one exactly unless, with nothing uncertain, the
helper raises, or breaks off a send without a word, after the last send that says how it
went was confirmed.
-/
theorem deliver_reported (helper : Helper) (world : Nat → Transmission × Transmission) :
    Reported helper world ↔ ¬ Loses (verdicts helper world) (helper.run world 0 {}).2 := by
  obtain ⟨unknown, known⟩ := deliver_reads helper world
  constructor
  · rintro ⟨complete, -⟩ ⟨certain, before, silents, whole, all, lost⟩
    have sent := (known certain).1.mpr (spoken_confirmed.mpr ⟨before, silents, whole, all⟩)
    obtain ⟨normal, recovered⟩ := complete sent
    rcases lost with raised | silents'
    · exact raised normal
    · obtain ⟨next, rest, rfl⟩ := List.exists_cons_of_ne_nil silents'
      have quiet := all next List.mem_cons_self
      rcases recovered (before ++ [.confirmed]) next rest (by simpa using whole) with
        confirmed | later
      · rw [quiet] at confirmed
        cases confirmed
      · have impossible := all _ (List.mem_cons_of_mem _ later)
        cases impossible
  · intro kept
    by_cases uncertain : .uncertain ∈ verdicts helper world
    · have outcome := unknown uncertain
      exact ⟨fun sent => absurd (outcome.symm.trans sent) (by decide), fun _ _ => outcome⟩
    · obtain ⟨sent, partly⟩ := known uncertain
      by_cases told : spoken (verdicts helper world) = some .confirmed
      · obtain ⟨before, silents, whole, all⟩ := spoken_confirmed.mp told
        have normal : (helper.run world 0 {}).2 = none := by
          by_contra raised
          exact kept ⟨uncertain, before, silents, whole, all, .inl raised⟩
        have last : silents = [] := by
          by_contra some
          exact kept ⟨uncertain, before, silents, whole, all, .inr some⟩
        refine ⟨fun _ => ⟨normal, ?_⟩, fun raised => absurd normal raised⟩
        intro earlier verdict after split
        rw [last] at whole
        rw [whole] at split
        cases after using List.reverseRecOn with
        | nil =>
          have same := (List.append_inj' split rfl).2
          exact .inl (List.cons.inj same).1.symm
        | append_singleton after other =>
          rw [← List.cons_append, ← List.append_assoc] at split
          have same := (List.append_inj' split rfl).2
          refine .inr ?_
          rw [← (List.cons.inj same).1]
          exact List.mem_append_right _ List.mem_cons_self
      · exact ⟨fun outcome => absurd (sent.mp outcome) told, fun _ => partly told⟩

/-- One confirmed message, and then an exception in the code of the helper itself. -/
theorem failure_lost : ¬ ∀ helper world, Reported helper world := by
  intro reported
  let turn : Transmission := ⟨.passes, .started, .passes, .receipt 7, .confirmed, true⟩
  have complete := (reported (.sends fun _ => .ends (some .other)) fun _ => (turn, turn)).complete
  have sent : (deliver (.sends fun _ => .ends (some .other)) fun _ =>
    (turn, turn)).2.outcome = "sent" := by decide
  cases (complete sent).1

end DeliveryOwner

end BobbyBotique.Broadcast
