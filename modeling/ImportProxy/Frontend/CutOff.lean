import ImportProxy.Frontend.Session
import ImportProxy.Lib.Streak

/-!
# The cut-off of a bad publisher

The reader counts the invalid messages since the last callback that returned, and
finishes when it has counted more than the maximum, `src/frontend.cpp:161–236`. The
counter is an `int`: no count exceeds a maximum of `2 ^ 31 - 1`.
-/

namespace ImportProxy.Frontend

open ImportProxy.Base

/-- The message fails one of the tests of `OnReadDone`. -/
def invalid (message : Packet) : Bool :=
  !hasSamples message || (trim message.streamIdentifier.network).isEmpty ||
    (trim message.streamIdentifier.station).isEmpty ||
    (trim message.streamIdentifier.channel).isEmpty

/-- The messages that fail a test are those that are not forwarded. -/
theorem forwarded_eq_none_iff (message : Packet) :
    forwarded message = none ↔ invalid message = true := by
  unfold forwarded invalid
  rw [hasNames_canonicalIdentifier]
  cases hasSamples message with
  | false => simp
  | true => simp [imp_iff_not_or, or_assoc]

namespace SessionEffect

/-- What an effect tells of a message: that it is invalid, or that its callback has returned. A
message whose callback throws is disregarded. -/
def verdict : SessionEffect → Option Bool
  | readDone (some message) => if invalid message then some true else none
  | submitted threw => if threw then none else some false
  | readDone none | startRead | finish _ _ => none

/-- The reader is done with a message; its answer comes next. -/
def endsMessage : SessionEffect → Bool
  | readDone (some message) => invalid message
  | submitted _ => true
  | readDone none | startRead | finish _ _ => false

end SessionEffect

/-- What became of the messages of a log. -/
def verdicts (log : List SessionEffect) : List Bool := log.filterMap SessionEffect.verdict

/-- The last messages were invalid, one more of them in a row than the maximum. -/
def Exceeds (options : FrontendOptions) (log : List SessionEffect) : Prop :=
  List.replicate (options.getMaximumNumberOfConsecutiveInvalidMessages.toNat + 1) true <:+
    verdicts log

/-- The last messages exceed the maximum, as no earlier ones did. -/
def FirstExceeds (options : FrontendOptions) (log : List SessionEffect) : Prop :=
  Exceeds options log ∧ ∀ before, before <+: log → before ≠ log → ¬Exceeds options before

/-- A publisher is disconnected for its first run of invalid messages that exceeds the maximum, and
for nothing else. -/
structure CutOff (options : FrontendOptions) (log : List SessionEffect) : Prop where
  /-- The answer to a message is `INVALID_ARGUMENT` where the first such run ends, and a call for
  the next message anywhere else. -/
  answered : ∀ before message answer rest, log = before ++ message :: answer :: rest →
    message.endsMessage = true →
    ((∃ response, answer = .finish tooManyInvalidMessages response) ↔
      FirstExceeds options (before ++ [message])) ∧
    (¬FirstExceeds options (before ++ [message]) → answer = .startRead)
  /-- No message is left without its answer. -/
  prompt : ∀ before message, log = before ++ [message] → message.endsMessage = false
  /-- A publisher without such a run is not disconnected for it. -/
  spared : (∀ before, before <+: log → ¬Exceeds options before) →
    ∀ response, .finish tooManyInvalidMessages response ∉ log

variable {options : FrontendOptions} {s s' : FrontendState} {session session' : Session}
  {log effects : List SessionEffect} {event : SessionEvent}

@[simp] theorem verdicts_append (log effects : List SessionEffect) :
    verdicts (log ++ effects) = verdicts log ++ verdicts effects := List.filterMap_append

/-- What the counter of the reader is after the messages of a log. -/
def counted (log : List SessionEffect) : Int := wrap32 (Lib.streak (verdicts log))

/-- The answer to the last message of a log. -/
inductive Answers (options : FrontendOptions) (log : List SessionEffect) : SessionEffect → Prop
  | finishes (response : PublishResponse)
      (hlt : options.getMaximumNumberOfConsecutiveInvalidMessages < counted log) :
      Answers options log (.finish tooManyInvalidMessages response)
  | reads (hle : counted log ≤ options.getMaximumNumberOfConsecutiveInvalidMessages) :
      Answers options log .startRead

/-- A log in which every message has the answer of its counter. -/
inductive Answered (options : FrontendOptions) : List SessionEffect → Prop
  | nil : Answered options []
  | other {log : List SessionEffect} (h : Answered options log) (effect : SessionEffect)
      (heffect : effect.endsMessage = false)
      (hfinish : ∀ response, effect ≠ .finish tooManyInvalidMessages response) :
      Answered options (log ++ [effect])
  | message {log : List SessionEffect} (h : Answered options log)
      (message answer : SessionEffect) (hends : message.endsMessage = true)
      (hanswer : Answers options (log ++ [message]) answer) :
      Answered options (log ++ [message] ++ [answer])

theorem Answers.endsMessage {answer : SessionEffect} (h : Answers options log answer) :
    answer.endsMessage = false := by
  cases h <;> rfl

theorem Answers.verdict {answer : SessionEffect} (h : Answers options log answer) :
    answer.verdict = none := by
  cases h <;> rfl

/-- No log ends with a message that waits for its answer. -/
theorem Answered.last (h : Answered options log) {before : List SessionEffect}
    {effect : SessionEffect} (hlog : log = before ++ [effect]) : effect.endsMessage = false := by
  cases h with
  | nil => simp at hlog
  | other h effect' heffect hfinish =>
    cases (List.append_inj' hlog rfl).2
    exact heffect
  | message h message answer hends hanswer =>
    cases (List.append_inj' hlog rfl).2
    exact hanswer.endsMessage

/-- The answer that follows a message. -/
theorem Answered.answers (h : Answered options log) {before rest : List SessionEffect}
    {message answer : SessionEffect} (hlog : log = before ++ message :: answer :: rest)
    (hends : message.endsMessage = true) : Answers options (before ++ [message]) answer := by
  induction h generalizing rest with
  | nil => simp at hlog
  | other h effect heffect hfinish ih =>
    rw [List.append_cons before] at hlog
    rcases Lib.concat_eq_append_cons hlog with ⟨-, hlog, -⟩ | ⟨rest', hlog⟩
    · rw [h.last hlog] at hends
      cases hends
    · exact ih (by rw [hlog, List.append_assoc]; rfl)
  | message h message' answer' hends' hanswer ih =>
    rw [List.append_cons before] at hlog
    rcases Lib.concat_eq_append_cons hlog with ⟨-, hsame, rfl⟩ | ⟨rest', hlog⟩
    · exact hsame ▸ hanswer
    · rcases Lib.concat_eq_append_cons hlog with ⟨-, hlog, -⟩ | ⟨rest', hlog⟩
      · rw [h.last hlog] at hends
        cases hends
      · exact ih (by rw [hlog, List.append_assoc]; rfl)

/-- Where the reader disconnects a publisher, a message has just ended. -/
theorem Answered.prompted (h : Answered options log) {before rest : List SessionEffect}
    {response : PublishResponse}
    (hlog : log = before ++ .finish tooManyInvalidMessages response :: rest) :
    ∃ before' message, before = before' ++ [message] ∧ message.endsMessage = true := by
  induction h generalizing rest with
  | nil => simp at hlog
  | other h effect heffect hfinish ih =>
    rcases Lib.concat_eq_append_cons hlog with ⟨-, -, heq⟩ | ⟨rest', hlog⟩
    · exact (hfinish response heq).elim
    · exact ih hlog
  | message h message answer hends hanswer ih =>
    rcases Lib.concat_eq_append_cons hlog with ⟨-, hlog, -⟩ | ⟨rest', hlog⟩
    · exact ⟨_, message, hlog.symm, hends⟩
    · rcases Lib.concat_eq_append_cons hlog with ⟨-, -, rfl⟩ | ⟨rest', hlog⟩
      · cases hends
      · exact ih hlog

theorem verdicts_concat (log : List SessionEffect) (effect : SessionEffect) :
    verdicts (log ++ [effect]) = verdicts log ++ effect.verdict.toList := by
  rw [verdicts_append]
  unfold verdicts
  rw [List.filterMap_cons]
  cases effect.verdict <;> rfl

theorem counted_nil : counted [] = 0 := by
  rw [counted, verdicts, List.filterMap_nil, Lib.streak_nil, wrap32, Nat.cast_zero, Int.zero_bmod]

/-- An effect that is no verdict leaves the counter. -/
theorem counted_concat_none {effect : SessionEffect} (h : effect.verdict = none) :
    counted (log ++ [effect]) = counted log := by
  rw [counted, verdicts_concat, h, Option.toList_none, List.append_nil, counted]

/-- An invalid message adds one to the counter. -/
theorem counted_concat_invalid {effect : SessionEffect} (h : effect.verdict = some true) :
    counted (log ++ [effect]) = wrap32 (counted log + 1) := by
  rw [counted, verdicts_concat, h, Option.toList_some, Lib.streak_concat_true, Nat.cast_add,
    counted, wrap32, wrap32, wrap32, Int.bmod_add_bmod, Nat.cast_one]

/-- An accepted message sets the counter to zero. -/
theorem counted_concat_accepted {effect : SessionEffect} (h : effect.verdict = some false) :
    counted (log ++ [effect]) = 0 := by
  rw [counted, verdicts_concat, h, Option.toList_some, Lib.streak_concat_false, wrap32,
    Nat.cast_zero, Int.zero_bmod]

/-- The counter of a session, and the answers to its messages. -/
structure CutInv (options : FrontendOptions) (session : Session) (log : List SessionEffect) :
    Prop where
  counter : session.reader.mConsecutiveInvalidMessagesCounter = counted log
  answered : Answered options log

/-- While the server runs, a message is answered by its counter. -/
theorem rpcEffects_afterMessage (session : Session) (hs : session.rpc.stage = .reading)
    (hrun : s.mKeepRunning = true)
    (hcounter : session.reader.mConsecutiveInvalidMessagesCounter = counted log) :
    ∃ answer, session.rpcEffects options s (session.reader.afterMessage options) = [answer] ∧
      Answers options log answer := by
  unfold Session.rpcEffects publishEffects Reader.afterMessage
  rw [hs]
  dsimp only
  by_cases hlt : session.reader.mConsecutiveInvalidMessagesCounter >
    options.getMaximumNumberOfConsecutiveInvalidMessages
  · rw [if_pos hlt]
    exact ⟨_, rfl, .finishes _ (hcounter ▸ hlt)⟩
  · rw [if_neg hlt]
    exact ⟨_, if_pos hrun, .reads (hcounter ▸ not_lt.mp hlt)⟩

/-- Any other step of an RPC answers no message. -/
theorem CutInv.outcome (h : CutInv options session log) {read : ReadEvent} {rpc : PublishRpc}
    {response : PublishResponse} {effects : List SessionEffect}
    (houtcome : PublishOutcome session.rpc response read rpc effects)
    (hread : read ≠ .tooManyInvalid) : CutInv options { session with rpc } (log ++ effects) := by
  cases houtcome with
  | silent rpc hs hs' hended hearly =>
    rw [List.append_nil]
    exact ⟨h.counter, h.answered⟩
  | reads rpc hopen hs' =>
    exact ⟨h.counter.trans (counted_concat_none rfl).symm, h.answered.other _ rfl nofun⟩
  | finishes status hopen hok hmany =>
    refine ⟨h.counter.trans (counted_concat_none rfl).symm, h.answered.other _ rfl ?_⟩
    intro response heq
    cases heq
    exact hread (hmany rfl)

/-- The end of a message is answered by its counter. -/
theorem CutInv.answer (h : CutInv options session log) (hrun : s.mKeepRunning = true)
    {message : SessionEffect} (hends : message.endsMessage = true)
    (hs : session'.rpc.stage = .reading)
    (hcounter : session'.reader.mConsecutiveInvalidMessagesCounter = counted (log ++ [message])) :
    CutInv options (session'.rpcStep options s (session'.reader.afterMessage options)).2
      (log ++ message :: session'.rpcEffects options s (session'.reader.afterMessage options)) := by
  obtain ⟨answer, heffects, hanswer⟩ := rpcEffects_afterMessage session' hs hrun hcounter
  rw [List.append_cons, heffects]
  exact ⟨hcounter.trans (counted_concat_none hanswer.verdict).symm,
    h.answered.message message answer hends hanswer⟩

/-- Every step of a session of a running server counts the invalid messages and answers each. -/
theorem CutInv.step (h : CutInv options session log) (hinv : SessionInv session log)
    (hrun : s.mKeepRunning = true)
    (hstep : SessionStep options s session event s' session' effects) :
    CutInv options session' (log ++ effects) := by
  have hcounter := h.counter
  cases hstep with
  | ignored =>
    rw [List.append_nil]
    exact h
  | proceeds => exact h.outcome (publish_outcome options s _ _ _) (by rintro ⟨⟩)
  | forwards message packet hw hf =>
    have hvalid : invalid message = false := by
      rw [← Bool.not_eq_true, ← forwarded_eq_none_iff, hf]
      exact Option.some_ne_none packet
    have hread : (session.receive message).reader.mConsecutiveInvalidMessagesCounter =
        session.reader.mConsecutiveInvalidMessagesCounter := by
      rw [Session.receive, Reader.receive, hf]
    have hverdict : (SessionEffect.readDone (some message)).verdict = none := by
      rw [SessionEffect.verdict, hvalid]
      rfl
    exact ⟨hread.trans (hcounter.trans (counted_concat_none hverdict).symm),
      h.answered.other _ hvalid (by rintro _ ⟨⟩)⟩
  | refuses message read hw hf hread =>
    have hinvalid := (forwarded_eq_none_iff message).mp hf
    have hverdict : (SessionEffect.readDone (some message)).verdict = some true := by
      rw [SessionEffect.verdict, hinvalid]
      rfl
    have hends : (SessionEffect.readDone (some message)).endsMessage = true := hinvalid
    have hs : (session.receive message).rpc.stage = .reading := ((waiting_iff session).mp hw).1
    subst hread
    apply h.answer hrun hends hs
    rw [counted_concat_invalid hverdict, ← hcounter, Session.receive, Reader.receive, hf]
  | ends hw =>
    have hread : CutInv options session.endOfStream (log ++ [.readDone none]) :=
      ⟨hcounter.trans (counted_concat_none rfl).symm, h.answered.other _ rfl (by rintro _ ⟨⟩)⟩
    rw [List.append_cons]
    exact hread.outcome (publish_outcome options s _ _ _) (by rintro ⟨⟩)
  | returns threw read hsub hread =>
    have hends : (SessionEffect.submitted threw).endsMessage = true := rfl
    have hs : (session.submitted threw).rpc.stage = .reading := hinv.submitting hsub
    subst hread
    apply h.answer hrun hends hs
    cases threw with
    | true => exact hcounter.trans (counted_concat_none rfl).symm
    | false => exact (counted_concat_accepted rfl).symm

/-- The last messages exceed the maximum when there are more of them than the maximum. -/
theorem exceeds_iff : Exceeds options log ↔
    options.getMaximumNumberOfConsecutiveInvalidMessages < Lib.streak (verdicts log) := by
  have hnonneg : 0 ≤ options.getMaximumNumberOfConsecutiveInvalidMessages :=
    options.mMaximumConsecutiveInvalidMessages.le
  rw [Exceeds, Lib.replicate_suffix_iff]
  omega

/-- The counter is never ahead of the messages. -/
theorem counted_le (log : List SessionEffect) : counted log ≤ Lib.streak (verdicts log) := by
  unfold counted wrap32
  generalize Lib.streak (verdicts log) = n
  rw [Int.bmod_def]
  split <;> omega

/-- The counter is an `int`. -/
theorem counted_lt (log : List SessionEffect) : counted log < 2 ^ 31 := by
  unfold counted wrap32
  generalize Lib.streak (verdicts log) = n
  rw [Int.bmod_def]
  split <;> omega

/-- Below the largest `int`, the counter is the number of messages. -/
theorem counted_eq (h : Lib.streak (verdicts log) < 2 ^ 31) :
    counted log = Lib.streak (verdicts log) := by
  unfold counted wrap32
  generalize Lib.streak (verdicts log) = n at h ⊢
  exact Int.bmod_eq_of_le (by omega) (by omega)

/-- An effect adds at most one invalid message. -/
theorem streak_concat_le (log : List SessionEffect) (effect : SessionEffect) :
    Lib.streak (verdicts (log ++ [effect])) ≤ Lib.streak (verdicts log) + 1 := by
  rw [verdicts_concat]
  cases effect.verdict with
  | none => simp
  | some b => cases b <;> simp

/-- What is no end of a message tells nothing of one. -/
theorem verdict_of_endsMessage {effect : SessionEffect} (h : effect.endsMessage = false) :
    effect.verdict = none := by
  cases effect with
  | startRead | finish => rfl
  | submitted => cases h
  | readDone message =>
    cases message with
    | none => rfl
    | some message => exact if_neg (ne_true_of_eq_false h)

/-- What comes before the end of a message has an answer to every message. -/
theorem Answered.before (h : Answered options log) {before rest : List SessionEffect}
    {message : SessionEffect} (hlog : log = before ++ message :: rest)
    (hends : message.endsMessage = true) : Answered options before := by
  induction h generalizing rest with
  | nil => simp at hlog
  | other h effect heffect hfinish ih =>
    rcases Lib.concat_eq_append_cons hlog with ⟨-, -, rfl⟩ | ⟨rest', hlog⟩
    · rw [heffect] at hends
      cases hends
    · exact ih hlog
  | message h message' answer hends' hanswer ih =>
    rcases Lib.concat_eq_append_cons hlog with ⟨-, -, rfl⟩ | ⟨rest', hlog⟩
    · rw [hanswer.endsMessage] at hends
      cases hends
    · rcases Lib.concat_eq_append_cons hlog with ⟨-, rfl, -⟩ | ⟨rest', hlog⟩
      · exact h
      · exact ih hlog

/-- As long as the publisher is not disconnected, no run of invalid messages exceeds a maximum that
the counter can exceed. -/
theorem Answered.streak_le (h : Answered options log)
    (hmax : options.getMaximumNumberOfConsecutiveInvalidMessages < 2 ^ 31 - 1)
    (hnone : ∀ response, .finish tooManyInvalidMessages response ∉ log)
    {before : List SessionEffect} (hbefore : before <+: log) :
    (Lib.streak (verdicts before) : Int) ≤
      options.getMaximumNumberOfConsecutiveInvalidMessages := by
  induction h generalizing before with
  | nil =>
    rw [List.prefix_nil.mp hbefore]
    exact options.mMaximumConsecutiveInvalidMessages.le
  | @other log h effect heffect hfinish ih =>
    have hlog : ∀ response, .finish tooManyInvalidMessages response ∉ log :=
      fun response hmem ↦ hnone response (List.mem_append_left _ hmem)
    rcases List.prefix_concat_iff.mp hbefore with rfl | hbefore
    · rw [verdicts_concat, verdict_of_endsMessage heffect, Option.toList_none, List.append_nil]
      exact ih hlog (List.prefix_refl _)
    · exact ih hlog hbefore
  | @message log h message answer hends hanswer ih =>
    have hlog : ∀ response, .finish tooManyInvalidMessages response ∉ log := fun response hmem ↦
      hnone response (List.mem_append_left _ (List.mem_append_left _ hmem))
    have hmessage : (Lib.streak (verdicts (log ++ [message])) : Int) ≤
        options.getMaximumNumberOfConsecutiveInvalidMessages := by
      have hle := streak_concat_le log message
      have hprevious := ih hlog (List.prefix_refl _)
      cases hanswer with
      | finishes response hlt =>
        exact (hnone response (List.mem_append_right _ List.mem_cons_self)).elim
      | reads hanswer =>
        rw [counted_eq (by omega)] at hanswer
        exact hanswer
    rcases List.prefix_concat_iff.mp hbefore with rfl | hbefore
    · rw [verdicts_concat, hanswer.verdict, Option.toList_none, List.append_nil]
      exact hmessage
    · rcases List.prefix_concat_iff.mp hbefore with rfl | hbefore
      · exact hmessage
      · exact ih hlog hbefore

/-- Where a message ends, the counter exceeds the maximum exactly for the first run that does, if
the counter can exceed it or there is no such run. -/
theorem Answered.lt_counted_iff (h : Answered options log) (hinv : SessionInv session log)
    (hcond : options.getMaximumNumberOfConsecutiveInvalidMessages < 2 ^ 31 - 1 ∨
      ∀ before, before <+: log → ¬Exceeds options before)
    {before rest : List SessionEffect} {message answer : SessionEffect}
    (hlog : log = before ++ message :: answer :: rest) (hends : message.endsMessage = true) :
    options.getMaximumNumberOfConsecutiveInvalidMessages < counted (before ++ [message]) ↔
      FirstExceeds options (before ++ [message]) := by
  rcases hcond with hmax | hnone
  · have hopen : ∀ response, .finish tooManyInvalidMessages response ∉ before := by
      intro response hmem
      obtain ⟨first, rest', rfl⟩ := List.append_of_mem hmem
      have hrest := (hinv.summary.finishLast first tooManyInvalidMessages response
        (rest' ++ message :: answer :: rest) (by rw [hlog]; simp)).2
      simp at hrest
    have hbounded {p : List SessionEffect} (hp : p <+: before) :=
      (h.before hlog hends).streak_le hmax hopen hp
    have hle := streak_concat_le before message
    have hprevious := hbounded (List.prefix_refl _)
    rw [counted_eq (by omega), ← exceeds_iff]
    constructor
    · intro hexceeds
      refine ⟨hexceeds, fun p hp hne hearlier ↦ ?_⟩
      rcases List.prefix_concat_iff.mp hp with rfl | hp
      · exact hne rfl
      · exact absurd (exceeds_iff.mp hearlier) (not_lt.mpr (hbounded hp))
    · exact And.left
  · have hnot : ¬Exceeds options (before ++ [message]) :=
      hnone _ ⟨answer :: rest, by rw [hlog]; simp⟩
    refine iff_of_false ?_ fun hfirst ↦ hnot hfirst.1
    rw [exceeds_iff] at hnot
    have hle := counted_le (before ++ [message])
    omega

/-- The publisher is disconnected for its first run that exceeds a maximum that the counter can
exceed. -/
theorem Answered.cutOff (h : Answered options log) (hinv : SessionInv session log)
    (hcond : options.getMaximumNumberOfConsecutiveInvalidMessages < 2 ^ 31 - 1 ∨
      ∀ before, before <+: log → ¬Exceeds options before) : CutOff options log where
  answered before message answer rest hlog hends := by
    rw [← h.lt_counted_iff hinv hcond hlog hends]
    cases h.answers hlog hends with
    | finishes response hlt => exact ⟨iff_of_true ⟨response, rfl⟩ hlt, fun hle ↦ (hle hlt).elim⟩
    | reads hle => exact ⟨iff_of_false nofun (not_lt.mpr hle), fun _ ↦ rfl⟩
  prompt before message hlog := h.last hlog
  spared hnone response hmem := by
    obtain ⟨before, rest, hlog⟩ := List.append_of_mem hmem
    obtain ⟨before, message, rfl, hends⟩ := h.prompted hlog
    rw [List.append_assoc] at hlog
    cases h.answers hlog hends with
    | finishes response hlt =>
      have hle := counted_le (before ++ [message])
      refine hnone (before ++ [message]) ⟨.finish tooManyInvalidMessages response :: rest, ?_⟩ ?_
      · rw [hlog, List.append_assoc]
      · exact exceeds_iff.mpr (hlt.trans_le hle)

/-- A run of invalid messages ends with one. -/
theorem FirstExceeds.exists_message (h : FirstExceeds options log) :
    ∃ before message, log = before ++ [message] ∧ message.endsMessage = true := by
  rcases List.eq_nil_or_concat log with rfl | ⟨before, message, rfl⟩
  · have hexceeds := exceeds_iff.mp h.1
    exact absurd hexceeds (not_lt.mpr options.mMaximumConsecutiveInvalidMessages.le)
  · rw [List.concat_eq_append] at h ⊢
    refine ⟨before, message, rfl, ?_⟩
    by_contra hother
    have hbefore : Exceeds options before := by
      have hexceeds := h.1
      rw [Exceeds, verdicts_concat, verdict_of_endsMessage (by simpa using hother),
        Option.toList_none, List.append_nil] at hexceeds
      exact hexceeds
    exact h.2 before (List.prefix_append _ _) (by simp) hbefore

/-- A run that exceeds a maximum that the counter cannot exceed goes unpunished. -/
theorem Answered.not_cutOff (h : Answered options log)
    (hmax : 2 ^ 31 - 1 ≤ options.getMaximumNumberOfConsecutiveInvalidMessages)
    (hsome : ∃ before, before <+: log ∧ Exceeds options before) : ¬CutOff options log := by
  intro hcut
  obtain ⟨first, ⟨rest, hlog⟩, hexceeds, hfirst⟩ := Lib.exists_first_prefix hsome
  obtain ⟨before, message, rfl, hends⟩ := FirstExceeds.exists_message ⟨hexceeds, hfirst⟩
  cases rest with
  | nil =>
    rw [List.append_nil] at hlog
    rw [h.last hlog.symm] at hends
    cases hends
  | cons answer rest =>
    rw [List.append_assoc] at hlog
    have hanswers := h.answers hlog.symm hends
    obtain ⟨response, rfl⟩ := (hcut.answered before message answer rest hlog.symm hends).1.mpr
      ⟨hexceeds, hfirst⟩
    cases hanswers with
    | finishes response hlt =>
      have hlt' := counted_lt (before ++ [message])
      omega

/-- No step of a session restarts the frontend or stops it. -/
theorem SessionStep.mKeepRunning_eq
    (hstep : SessionStep options s session event s' session' effects) :
    s'.mKeepRunning = s.mKeepRunning := by
  rcases hstep.publishStep_eq with ⟨read, hpublish⟩ | ⟨rfl, -⟩
  · have hkept := (publish_step options s session.rpc read).mKeepRunning_eq
    rwa [hpublish] at hkept
  · rfl

theorem cutInv_stable (options : FrontendOptions) :
    Lib.Program.Stable (sessions options) (fun _ ↦ True) (fun s _ t ↦
      SessionInv t.1 t.2 ∧ (s.mKeepRunning = true → CutInv options t.1 t.2)) where
  start s i clientMetadata h :=
    ⟨(sessionInv_stable options).start s i clientMetadata h, fun _ ↦ ⟨counted_nil.symm, .nil⟩⟩
  act s _ t event _ h := by
    have hstep := session_step options s t.1 event
    refine ⟨trivial, h.1.step hstep, fun hrun ↦ ?_⟩
    have hbefore := hstep.mKeepRunning_eq.symm.trans hrun
    exact (h.2 hbefore).step h.1 hbefore hstep
  other s _ t _ _ event _ _ _ h :=
    ⟨h.1, fun hrun ↦ h.2 ((session_step options s t.1 event).mKeepRunning_eq.symm.trans hrun)⟩
  env _ _ _ := trivial
  envThread _ _ _ _ _ h := ⟨h.1, by rintro ⟨⟩⟩

theorem cutInv_sessionRun (options : FrontendOptions)
    (moves : List (Lib.Move Metadata SessionEvent FrontendEvent)) :
    ∀ t ∈ (sessionRun options moves).threads, SessionInv t.1 t.2 ∧
      ((sessionRun options moves).shared.mKeepRunning = true → CutInv options t.1 t.2) := by
  intro t hmem
  have hstable := (cutInv_stable options).after (s := ⟨{}, []⟩) ⟨trivial, by simp⟩ moves
  exact hstable.of_mem hmem

/-- As long as the server runs, a publisher is disconnected for its first run of invalid messages
that exceeds the maximum and for nothing else, exactly if the counter can exceed the maximum or
there is no such run. -/
theorem cutOff_iff {options : FrontendOptions}
    {moves : List (Lib.Move Metadata SessionEvent FrontendEvent)}
    (hrun : (sessionRun options moves).shared.mKeepRunning = true) :
    ∀ t ∈ (sessionRun options moves).threads, CutOff options t.2 ↔
      options.getMaximumNumberOfConsecutiveInvalidMessages < 2 ^ 31 - 1 ∨
        ∀ before, before <+: t.2 → ¬Exceeds options before := by
  intro t hmem
  obtain ⟨hinv, hcut⟩ := cutInv_sessionRun options moves t hmem
  have hanswered := (hcut hrun).answered
  constructor
  · intro hcutOff
    by_contra hcond
    simp only [not_or, not_lt, not_forall, not_not, exists_prop] at hcond
    exact hanswered.not_cutOff hcond.1 hcond.2 hcutOff
  · exact hanswered.cutOff hinv

section Runs

/-- A packet without samples. -/
def noSamples : Packet := { validPacket with numberOfSamples := 0 }

/-- Options that allow one invalid message in a row. -/
def oneInvalidAllowed : FrontendOptions where
  mMaximumConsecutiveInvalidMessages := ⟨1, by decide⟩

/-- The callback of a message between two invalid ones throws. -/
def invalidThrowsInvalid : List (Lib.Move Metadata SessionEvent FrontendEvent) :=
  publisherReads ++ [.run 0 (.message noSamples), .run 0 (.message validPacket),
    .run 0 (.submitted true), .run 0 (.message noSamples)]

theorem cutOff_invalidThrowsInvalid :
    ∃ t ∈ (sessionRun oneInvalidAllowed invalidThrowsInvalid).threads,
      CutOff oneInvalidAllowed t.2 := by
  have hne : (sessionRun oneInvalidAllowed invalidThrowsInvalid).threads ≠ [] := by
    decide +kernel
  have hcond : oneInvalidAllowed.mMaximumConsecutiveInvalidMessages.value < 2 ^ 31 - 1 := by
    decide
  exact ⟨_, List.head_mem hne,
    (cutOff_iff (by decide +kernel) _ (List.head_mem hne)).mpr (Or.inl hcond)⟩

/-- Options that allow as many invalid messages in a row as an `int` can say. -/
def allInvalidAllowed : FrontendOptions where
  mMaximumConsecutiveInvalidMessages := ⟨2 ^ 31 - 1, by decide⟩

/-- A publisher sends invalid messages. -/
def invalidMessages (n : Nat) : List (Lib.Move Metadata SessionEvent FrontendEvent) :=
  List.replicate n (.run 0 (.message noSamples))

/-- A session with the largest maximum reads on after an invalid message. -/
theorem after_invalid (log : List SessionEffect) (hrun : s.mKeepRunning = true)
    (hs : session.waiting = true) :
    ∃ session', (sessions allInvalidAllowed).step ⟨s, [(session, log)]⟩
      (.run 0 (.message noSamples)) =
        ⟨s, [(session', log ++ [.readDone (some noSamples), .startRead])]⟩ ∧
      session'.waiting = true := by
  obtain ⟨hstage, hidle⟩ := (waiting_iff session).mp hs
  have hgoesOn : (session.receive noSamples).reader.afterMessage allInvalidAllowed =
      .message := by
    refine if_neg (not_lt.mpr ?_)
    have hlt : wrap32 (session.reader.mConsecutiveInvalidMessagesCounter + 1) < 2 ^ 31 :=
      Int.bmod_lt (by decide)
    exact Int.le_sub_one_of_lt hlt
  have hrpc : (session.receive noSamples).rpc.stage = .reading := hstage
  have hstep : session.step allInvalidAllowed s (.message noSamples) =
      (s, session.receive noSamples) := by
    rw [Session.step, if_pos hs]
    show (session.receive noSamples).rpcStep allInvalidAllowed s _ = _
    rw [hgoesOn, Session.rpcStep, publishStep, hrpc]
    simp only [hrun, if_true]
  have heffects : session.effects allInvalidAllowed s (.message noSamples) =
      [.readDone (some noSamples), .startRead] := by
    rw [Session.effects, if_pos hs]
    show .readDone (some noSamples) ::
      (session.receive noSamples).rpcEffects allInvalidAllowed s _ = _
    rw [hgoesOn, Session.rpcEffects, publishEffects, hrpc]
    simp only [hrun, if_true]
  refine ⟨session.receive noSamples, ?_, (waiting_iff _).mpr ⟨hstage, rfl⟩⟩
  rw [sessions_step, hstep, heffects]

/-- A session with the largest maximum reads any number of invalid messages. -/
theorem after_invalidMessages (n : Nat) (hrun : s.mKeepRunning = true)
    (hs : session.waiting = true) : ∃ session' log',
      (sessions allInvalidAllowed).after ⟨s, [(session, log)]⟩ (invalidMessages n) =
        ⟨s, [(session', log')]⟩ ∧ verdicts log' = verdicts log ++ List.replicate n true := by
  induction n generalizing session log with
  | zero => exact ⟨session, log, rfl, (List.append_nil _).symm⟩
  | succ n ih =>
    obtain ⟨session₁, hfirst, hs₁⟩ := after_invalid log hrun hs
    obtain ⟨session₂, log₂, hrest, hmore⟩ := ih hs₁
    refine ⟨session₂, log₂, ?_, ?_⟩
    · rw [← hrest, ← hfirst]
      rfl
    · rw [hmore, verdicts_append, List.append_assoc, List.replicate_succ]
      rfl

/-- A publisher that sends `2 ^ 31` invalid messages in a row is not disconnected. -/
theorem largestMaximum_not_cutOff :
    ∃ t ∈ (sessionRun allInvalidAllowed (publisherReads ++ invalidMessages (2 ^ 31))).threads,
      ¬CutOff allInvalidAllowed t.2 := by
  have hreads : sessionRun allInvalidAllowed publisherReads =
      ⟨{ mNumberOfPublishers := 1 }, [(readingSession, [.startRead])]⟩ := rfl
  have hafter : ∃ session log, (sessions allInvalidAllowed).after
      (sessionRun allInvalidAllowed publisherReads) (invalidMessages (2 ^ 31)) =
        ⟨{ mNumberOfPublishers := 1 }, [(session, log)]⟩ ∧
      verdicts log = verdicts [.startRead] ++ List.replicate (2 ^ 31) true := by
    rw [hreads]
    exact after_invalidMessages (2 ^ 31) rfl rfl
  obtain ⟨session, log, hafter, hverdicts⟩ := hafter
  have hrun : sessionRun allInvalidAllowed (publisherReads ++ invalidMessages (2 ^ 31)) =
      ⟨{ mNumberOfPublishers := 1 }, [(session, log)]⟩ := by
    rw [← hafter]
    exact Lib.Program.after_append _ _
  have hmem : (session, log) ∈
      (sessionRun allInvalidAllowed (publisherReads ++ invalidMessages (2 ^ 31))).threads := by
    rw [hrun]
    exact List.mem_cons_self
  have hkeep : (sessionRun allInvalidAllowed
      (publisherReads ++ invalidMessages (2 ^ 31))).shared.mKeepRunning = true := by rw [hrun]
  have hcut := (cutInv_sessionRun _ _ _ hmem).2 hkeep
  have hmax : allInvalidAllowed.getMaximumNumberOfConsecutiveInvalidMessages = 2 ^ 31 - 1 := rfl
  have hstreak : Lib.streak (verdicts log) = 2 ^ 31 := by
    rw [hverdicts, Lib.streak_append_replicate]
    rfl
  refine ⟨_, hmem, hcut.answered.not_cutOff hmax.ge ⟨log, List.prefix_refl _, ?_⟩⟩
  rw [exceeds_iff, hmax, hstreak]
  decide

end Runs

end ImportProxy.Frontend
