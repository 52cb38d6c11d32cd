import KeyCompute.Gateway.Stream

/-!
# Token usage of a stream

`UsageAccumulator` is the pair of counters a request is billed by.  A count is an estimate until the
provider reports an exact one, and a finalized output takes no more estimates.  Counts are 32 bits
wide: `addOutput` wraps.

`observe` is what the event loop of `try_execute` does to the accumulator.  What it is meant to
leave there, `billedInput` and `billedOutput`, is the last exact report, or else the estimate.
`Reflects` relates the two and is kept by every event.
-/

namespace KeyCompute.Gateway

structure UsageAccumulator where
  inputTokens : ℕ := 0
  outputTokens : ℕ := 0
  outputFinalized : Bool := false
  inputFinalized : Bool := false

open UsageAccumulator

namespace UsageAccumulator

def addOutput (u : UsageAccumulator) (tokens : ℕ) : UsageAccumulator :=
  if u.outputFinalized then u
  else { u with outputTokens := (u.outputTokens + tokens) % 2 ^ 32 }

def setOutput (u : UsageAccumulator) (tokens : ℕ) : UsageAccumulator :=
  { u with outputTokens := tokens, outputFinalized := true }

def setInput (u : UsageAccumulator) (tokens : ℕ) : UsageAccumulator :=
  { u with inputTokens := tokens, inputFinalized := true }

def setInputEstimate (u : UsageAccumulator) (tokens : ℕ) : UsageAccumulator :=
  { u with inputTokens := tokens, inputFinalized := false }

def setOutputEstimate (u : UsageAccumulator) (tokens : ℕ) : UsageAccumulator :=
  { u with outputTokens := tokens, outputFinalized := false }

def snapshot (u : UsageAccumulator) : ℕ × ℕ := (u.inputTokens, u.outputTokens)

/-- The exact input count of a report; a provider that reports `0` has not counted. -/
def reportInput (u : UsageAccumulator) (tokens : ℕ) : UsageAccumulator :=
  if 0 < tokens then u.setInput tokens else u

/-- The estimate of a whole body, which replaces the estimate so far unless it is empty. -/
def estimateBody (u : UsageAccumulator) (estimated : ℕ) : UsageAccumulator :=
  if 0 < estimated then u.setOutputEstimate estimated else u

/-- The part of the event loop that updates the output estimate on a native event. -/
def observeNative (codec : Codec) (u : UsageAccumulator) :
    NativeStreamEvent → UsageAccumulator
  | .openAiChatJson body => u.estimateBody (estimateChatOutputTokens codec body)
  | .openAiChatSse data =>
    (nativeChatBillableDeltas data).foldl
      (fun u delta => u.addOutput (codec.estimateTokens delta)) u
  | .openAiResponsesJson body => u.estimateBody (estimateResponsesOutputTokens codec body)
  | .openAiResponsesSse event data =>
    if nativeResponsesSseIsTerminal event data then
      u.estimateBody (estimateResponsesOutputTokens codec data)
    else
      match nativeResponsesBillableDelta event data with
      | some delta => u.addOutput (codec.estimateTokens delta)
      | none => u
  | .openAiResponsesHttpError .. => u

/-- **What the event loop does to the accumulator** when an event arrives. -/
def observe (codec : Codec) (u : UsageAccumulator) : StreamEvent → UsageAccumulator
  | .delta content _ =>
    if u.outputFinalized then u else u.addOutput (codec.estimateTokens content)
  | .usage inputTokens outputTokens => (u.reportInput inputTokens).setOutput outputTokens
  | .inputUsage inputTokens => u.reportInput inputTokens
  | .native event =>
    -- an error event leaves the loop before its payload is looked at
    if event.isError then u
    else if u.outputFinalized then u
    else u.observeNative codec event
  | .done | .error _ | .raw _ => u

def restart (u : UsageAccumulator) (estimatedInputTokens : ℕ) : UsageAccumulator :=
  (u.setInputEstimate estimatedInputTokens).setOutputEstimate 0

end UsageAccumulator

/-! ## What is to be billed -/

section Billed

variable (codec : Codec)

def StreamEvent.exactInput : StreamEvent → Option ℕ
  | .usage inputTokens _ | .inputUsage inputTokens =>
    if 0 < inputTokens then some inputTokens else none
  | _ => none

def StreamEvent.exactOutput : StreamEvent → Option ℕ
  | .usage _ outputTokens => some outputTokens
  | _ => none

/-- An estimate over a whole body; an empty one says nothing. -/
def NativeStreamEvent.bodyEstimate : NativeStreamEvent → Option ℕ
  | .openAiChatJson body => some (estimateChatOutputTokens codec body)
  | .openAiResponsesJson body => some (estimateResponsesOutputTokens codec body)
  | .openAiResponsesSse event data =>
    if nativeResponsesSseIsTerminal event data then
      some (estimateResponsesOutputTokens codec data)
    else none
  | _ => none

/-- The pieces of generated text in a native event that is not a whole body. -/
def NativeStreamEvent.deltas : NativeStreamEvent → List String
  | .openAiChatSse data => nativeChatBillableDeltas data
  | .openAiResponsesSse event data =>
    if nativeResponsesSseIsTerminal event data then []
    else (nativeResponsesBillableDelta event data).toList
  | _ => []

def StreamEvent.bodyEstimate : StreamEvent → Option ℕ
  | .native event =>
    if event.isError then none else (event.bodyEstimate codec).filter (0 < ·)
  | _ => none

def StreamEvent.deltaEstimate : StreamEvent → ℕ
  | .delta content _ => codec.estimateTokens content
  | .native event =>
    if event.isError then 0 else (event.deltas.map codec.estimateTokens).sum
  | _ => 0

/-- **The input count to bill**: the last positive count reported, or the estimate. -/
def billedInput (estimate : ℕ) (events : List StreamEvent) : ℕ :=
  (events.reverse.findSome? StreamEvent.exactInput).getD estimate

def reportedOutput (events : List StreamEvent) : Option ℕ :=
  events.reverse.findSome? StreamEvent.exactOutput

/-- The estimate of the content: the last full body, and what came since. -/
def estimatedOutput (events : List StreamEvent) : ℕ :=
  (events.reverse.findSome? (StreamEvent.bodyEstimate codec)).getD 0 +
    ((events.reverse.takeWhile fun event => (event.bodyEstimate codec).isNone).map
      (StreamEvent.deltaEstimate codec)).sum

/-- **The output count to bill**: the last count reported, or the estimate. -/
def billedOutput (events : List StreamEvent) : ℕ :=
  (reportedOutput events).getD (estimatedOutput codec events)

end Billed

/-! ## The accumulator holds it -/

section Reflects

variable {codec : Codec} {estimate : ℕ} {events : List StreamEvent} {event : StreamEvent}
  {u : UsageAccumulator}

theorem billedInput_append :
    billedInput estimate (events ++ [event]) =
      event.exactInput.getD (billedInput estimate events) := by
  unfold billedInput
  rw [List.reverse_append, List.reverse_singleton, List.singleton_append, List.findSome?_cons]
  cases event.exactInput <;> rfl

theorem reportedOutput_append :
    reportedOutput (events ++ [event]) = event.exactOutput.or (reportedOutput events) := by
  unfold reportedOutput
  rw [List.reverse_append, List.reverse_singleton, List.singleton_append, List.findSome?_cons]
  cases event.exactOutput <;> rfl

theorem estimatedOutput_append :
    estimatedOutput codec (events ++ [event]) =
      match event.bodyEstimate codec with
      | some estimated => estimated
      | none => estimatedOutput codec events + event.deltaEstimate codec := by
  unfold estimatedOutput
  rw [List.reverse_append, List.reverse_singleton, List.singleton_append, List.findSome?_cons,
    List.takeWhile_cons]
  cases event.bodyEstimate codec with
  | some estimated => simp
  | none => grind

/-- The accumulator of an attempt whose stream has delivered `events` so far. -/
structure Reflects (codec : Codec) (estimate : ℕ) (events : List StreamEvent)
    (u : UsageAccumulator) : Prop where
  input : u.inputTokens = billedInput estimate events
  finalized : u.outputFinalized = (reportedOutput events).isSome
  reported : ∀ tokens, reportedOutput events = some tokens → u.outputTokens = tokens
  estimated : reportedOutput events = none → estimatedOutput codec events < 2 ^ 32 →
    u.outputTokens = estimatedOutput codec events

theorem reflects_restart : Reflects codec estimate [] (u.restart estimate) :=
  ⟨rfl, rfl, nofun, fun _ _ => rfl⟩

theorem Reflects.snapshot (h : Reflects codec estimate events u)
    (hsum : estimatedOutput codec events < 2 ^ 32) :
    u.snapshot = (billedInput estimate events, billedOutput codec events) := by
  refine Prod.ext h.input ?_
  show u.outputTokens = (reportedOutput events).getD (estimatedOutput codec events)
  cases hreported : reportedOutput events with
  | some tokens => exact h.reported tokens hreported
  | none => exact h.estimated hreported hsum

namespace UsageAccumulator

@[simp] theorem addOutput_inputTokens (tokens : ℕ) :
    (u.addOutput tokens).inputTokens = u.inputTokens := by
  unfold addOutput
  split <;> rfl

@[simp] theorem addOutput_outputFinalized (tokens : ℕ) :
    (u.addOutput tokens).outputFinalized = u.outputFinalized := by
  unfold addOutput
  split <;> rfl

theorem addOutput_outputTokens {tokens : ℕ} (hopen : u.outputFinalized = false)
    (hsum : u.outputTokens + tokens < 2 ^ 32) :
    (u.addOutput tokens).outputTokens = u.outputTokens + tokens := by
  rw [addOutput, hopen, if_neg (by decide)]
  exact Nat.mod_eq_of_lt hsum

@[simp] theorem reportInput_outputTokens (tokens : ℕ) :
    (u.reportInput tokens).outputTokens = u.outputTokens := by
  unfold reportInput
  split <;> rfl

@[simp] theorem reportInput_outputFinalized (tokens : ℕ) :
    (u.reportInput tokens).outputFinalized = u.outputFinalized := by
  unfold reportInput
  split <;> rfl

theorem reportInput_inputTokens (tokens : ℕ) :
    (u.reportInput tokens).inputTokens =
      (if 0 < tokens then some tokens else none).getD u.inputTokens := by
  unfold reportInput
  split <;> rfl

@[simp] theorem estimateBody_inputTokens (estimated : ℕ) :
    (u.estimateBody estimated).inputTokens = u.inputTokens := by
  unfold estimateBody
  split <;> rfl

theorem estimateBody_outputFinalized {estimated : ℕ} (hopen : u.outputFinalized = false) :
    (u.estimateBody estimated).outputFinalized = false := by
  unfold estimateBody
  split
  · rfl
  · exact hopen

theorem estimateBody_outputTokens (estimated : ℕ) :
    (u.estimateBody estimated).outputTokens =
      ((some estimated).filter (0 < ·)).getD u.outputTokens := by
  by_cases h : 0 < estimated <;> simp [estimateBody, Option.filter, h, setOutputEstimate]

end UsageAccumulator

/-- What an estimate does to an output that is not finalized: it replaces the count by a
full-body estimate, or adds to it. -/
structure Estimates (u u' : UsageAccumulator) (body : Option ℕ) (added : ℕ) : Prop where
  input : u'.inputTokens = u.inputTokens
  stillOpen : u'.outputFinalized = false
  replaced : ∀ estimated, body = some estimated → u'.outputTokens = estimated
  grown : body = none → u.outputTokens + added < 2 ^ 32 →
    u'.outputTokens = u.outputTokens + added

theorem Estimates.refl (hopen : u.outputFinalized = false) : Estimates u u none 0 :=
  ⟨rfl, hopen, nofun, fun _ _ => rfl⟩

theorem estimates_addOutput (hopen : u.outputFinalized = false) (tokens : ℕ) :
    Estimates u (u.addOutput tokens) none tokens where
  input := u.addOutput_inputTokens tokens
  stillOpen := by rw [addOutput_outputFinalized, hopen]
  replaced := nofun
  grown := fun _ hsum => addOutput_outputTokens hopen hsum

theorem estimates_addOutputs (deltas : List String) (hopen : u.outputFinalized = false) :
    Estimates u (deltas.foldl (fun u delta => u.addOutput (codec.estimateTokens delta)) u) none
      (deltas.map codec.estimateTokens).sum := by
  induction deltas generalizing u with
  | nil => exact Estimates.refl hopen
  | cons delta rest ih =>
    have hfirst := estimates_addOutput hopen (codec.estimateTokens delta)
    have hrest := ih hfirst.stillOpen
    refine ⟨hrest.input.trans hfirst.input, hrest.stillOpen, nofun, ?_⟩
    intro _ hsum
    rw [List.map_cons, List.sum_cons] at hsum ⊢
    have hcount := hfirst.grown rfl (by omega)
    rw [List.foldl_cons, hrest.grown rfl (by omega), hcount, Nat.add_assoc]

theorem estimates_estimateBody (hopen : u.outputFinalized = false) (estimated : ℕ) :
    Estimates u (u.estimateBody estimated) ((some estimated).filter (0 < ·)) 0 where
  input := u.estimateBody_inputTokens estimated
  stillOpen := estimateBody_outputFinalized hopen
  replaced := by
    intro counted h
    rw [estimateBody_outputTokens, h]
    rfl
  grown := by
    intro h _
    rw [estimateBody_outputTokens, h]
    rfl

theorem estimates_observeNative (hopen : u.outputFinalized = false) (event : NativeStreamEvent) :
    Estimates u (u.observeNative codec event) ((event.bodyEstimate codec).filter (0 < ·))
      (event.deltas.map codec.estimateTokens).sum := by
  cases event with
  | openAiChatJson body => exact estimates_estimateBody hopen _
  | openAiChatSse data => exact estimates_addOutputs _ hopen
  | openAiResponsesJson body => exact estimates_estimateBody hopen _
  | openAiResponsesSse name data =>
    simp only [observeNative, NativeStreamEvent.bodyEstimate,
      NativeStreamEvent.deltas]
    by_cases hterminal : nativeResponsesSseIsTerminal name data = true
    · simp only [hterminal, if_true]
      exact estimates_estimateBody hopen _
    · grind [Estimates.refl, estimates_addOutput, Estimates]
  | openAiResponsesHttpError status headers body => exact Estimates.refl hopen

theorem estimates_observe (hopen : u.outputFinalized = false) (hinput : event.exactInput = none)
    (houtput : event.exactOutput = none) :
    Estimates u (u.observe codec event) (event.bodyEstimate codec)
      (event.deltaEstimate codec) := by
  cases event with
  | delta content finishReason =>
    simp only [observe, hopen, Bool.false_eq_true, if_false]
    exact estimates_addOutput hopen _
  | usage inputTokens outputTokens => cases houtput
  | inputUsage inputTokens =>
    have hzero : ¬ 0 < inputTokens := by grind [StreamEvent.exactInput]
    rw [observe, reportInput, if_neg hzero]
    exact Estimates.refl hopen
  | done | error | raw => exact Estimates.refl hopen
  | native event =>
    simp only [observe, StreamEvent.bodyEstimate, StreamEvent.deltaEstimate]
    by_cases herror : event.isError = true
    · simp only [herror, if_true]
      exact Estimates.refl hopen
    · simp only [herror, hopen, Bool.false_eq_true, if_false]
      exact estimates_observeNative hopen event

theorem observe_finalized (hfinal : u.outputFinalized = true) (hinput : event.exactInput = none)
    (houtput : event.exactOutput = none) : u.observe codec event = u := by
  cases event with
  | usage inputTokens outputTokens => cases houtput
  | inputUsage inputTokens =>
      grind [StreamEvent.exactInput, observe, reportInput]
  | delta | native => simp [observe, hfinal]
  | done | error | raw => rfl

theorem StreamEvent.estimates_nothing_of_exactInput (codec : Codec) {tokens : ℕ}
    (h : event.exactInput = some tokens) :
    event.bodyEstimate codec = none ∧ event.deltaEstimate codec = 0 := by
  cases event with
  | usage | inputUsage => exact ⟨rfl, rfl⟩
  | _ => cases h

theorem Reflects.observe (h : Reflects codec estimate events u) :
    Reflects codec estimate (events ++ [event]) (u.observe codec event) := by
  cases houtput : event.exactOutput with
  | some tokens =>
    -- an exact report closes the output and may fix the input
    cases event with
    | usage inputTokens outputTokens =>
      refine ⟨?_, ?_, ?_, ?_⟩
      · rw [billedInput_append, ← h.input]
        exact reportInput_inputTokens inputTokens
      · rw [reportedOutput_append]
        rfl
      · intro tokens' hreported
        rw [reportedOutput_append] at hreported
        exact Option.some.inj hreported
      · grind [reportedOutput_append]
    | _ => cases houtput
  | none =>
    have hreported : reportedOutput (events ++ [event]) = reportedOutput events := by
      rw [reportedOutput_append, houtput, Option.none_or]
    cases hinput : event.exactInput with
    | some tokens =>
      obtain ⟨hbody, hdelta⟩ := StreamEvent.estimates_nothing_of_exactInput codec hinput
      have hestimated : estimatedOutput codec (events ++ [event]) =
          estimatedOutput codec events := by
        rw [estimatedOutput_append, hbody, hdelta, Nat.add_zero]
      cases event with
      | inputUsage inputTokens =>
        refine ⟨?_, ?_, ?_, ?_⟩
        · rw [billedInput_append, ← h.input]
          exact reportInput_inputTokens inputTokens
        · rw [hreported, ← h.finalized]
          exact reportInput_outputFinalized inputTokens
        · intro tokens' hsome
          rw [hreported] at hsome
          exact (reportInput_outputTokens inputTokens).trans
            (h.reported tokens' hsome)
        · intro hnone hsum
          rw [hreported] at hnone
          rw [hestimated] at hsum ⊢
          exact (reportInput_outputTokens inputTokens).trans
            (h.estimated hnone hsum)
      | usage inputTokens outputTokens => cases houtput
      | _ => cases hinput
    | none =>
      have hbilled : billedInput estimate (events ++ [event]) = billedInput estimate events := by
        rw [billedInput_append, hinput, Option.getD_none]
      cases hfinal : u.outputFinalized with
      | true =>
        rw [observe_finalized hfinal hinput houtput]
        refine ⟨h.input.trans hbilled.symm, ?_, ?_, ?_⟩
        · rw [hreported, h.finalized]
        · grind [Reflects]
        · grind [Reflects]
      | false =>
        have hstep : Estimates u (u.observe codec event) (event.bodyEstimate codec)
            (event.deltaEstimate codec) := estimates_observe hfinal hinput houtput
        have hnone : reportedOutput events = none := by
          cases hsome : reportedOutput events with
          | none => rfl
          | some tokens =>
            rw [h.finalized, hsome] at hfinal
            cases hfinal
        refine ⟨?_, ?_, ?_, ?_⟩
        · rw [hstep.input, h.input, hbilled]
        · rw [hstep.stillOpen, hreported, hnone]
          rfl
        · grind [Reflects]
        · intro _ hsum
          rw [estimatedOutput_append] at hsum ⊢
          cases hbody : event.bodyEstimate codec with
          | some estimated => exact hstep.replaced estimated hbody
          | none =>
            simp only [hbody] at hsum ⊢
            have hsofar := h.estimated hnone (Nat.lt_of_le_of_lt (Nat.le_add_right _ _) hsum)
            rw [← hsofar] at hsum ⊢
            exact hstep.grown hbody hsum

end Reflects

end KeyCompute.Gateway
