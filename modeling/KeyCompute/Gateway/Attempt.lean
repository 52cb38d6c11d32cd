import KeyCompute.Control.Loop
import KeyCompute.Gateway.Plan
import KeyCompute.Gateway.Usage

/-!
# One attempt on an upstream account

`try_execute` dispatches a request to the provider of its target, forwards the events of the stream
and keeps the usage.  What the code awaits is an oracle (`AttemptEnv`), with the client leaving or
the attempt being dropped at any step.

The run keeps a **trace** of what it did to the outside, which no branch reads.  `tryExecute_spec`
says once which effects an attempt adds, and that the flag for sent content and the billing data are
what these effects make of them.
-/

namespace KeyCompute.Gateway

open Control (Turn loop loop_rule loop_fst_eq)

/-! ## Effects and the state of a run -/

inductive AttemptKind where
  | primary | retry | fallback
  deriving DecidableEq

/-- What a run does to the outside, by the slot that does it. -/
inductive Effect where
  | attemptStarted (slot : ℕ) (kind : AttemptKind)
  /-- The call of the provider. -/
  | dispatched (slot : ℕ) (target : ExecutionTarget) (includeStreamUsage : Bool)
  /-- A response with a 2xx status. -/
  | accepted (slot : ℕ) (target : ExecutionTarget)
  | received (slot : ℕ) (event : StreamEvent)
  /-- An event put on the client channel, by an attempt or, deferred, by the run itself. -/
  | sent (source : Option ℕ) (event : StreamEvent)
  /-- The provider account that completed the request was recorded. -/
  | completed (slot : ℕ) (target : ExecutionTarget)
  | failed (slot : ℕ) (target : ExecutionTarget) (error : KeyComputeError)
  | attemptFinished (slot : ℕ) (isFinal : Bool)

namespace Effect

def isDispatch : Effect → Bool
  | dispatched .. => true
  | _ => false

def sendsContent (codec : Codec) : Effect → Bool
  | sent _ event => event.isContent codec
  | _ => false

def slot? : Effect → Option ℕ
  | attemptStarted slot _ | dispatched slot _ _ | accepted slot _ | received slot _
  | completed slot _ | failed slot _ _ | attemptFinished slot _ => some slot
  | sent source _ => source

end Effect

/-- The billing data of a `RequestContext`. -/
structure RequestUsage where
  usage : UsageAccumulator := {}
  usageProviderAccount : Option (String × Uuid) := none
  executedProviderAccount : Option (String × Uuid) := none

/-- The local variables with which `run_plan` chooses the next slot. -/
structure Progress where
  lastError : Option KeyComputeError := none
  attemptedAccounts : List Uuid := []
  compatibilityRetryPending : List Uuid := []
  streamUsageUnsupported : List Uuid := []
  nextEligibleIndex : ℕ := 0

structure RunState where
  trace : List Effect := []
  sentContent : Bool := false
  deferredNativeError : Option NativeStreamEvent := none
  billing : RequestUsage := {}
  progress : Progress := {}

def ExecutionTarget.providerAccount? : ExecutionTarget → Option (String × Uuid)
  | upstreamAccount provider accountId _ _ _ => some (provider, accountId)
  | nodeDispatch _ => none

def Effect.bill (codec : Codec) (ctx : RequestContext) (billing : RequestUsage) :
    Effect → RequestUsage
  | accepted _ target =>
    { billing with
      usage := billing.usage.restart ctx.estimatedInputTokens
      usageProviderAccount := target.providerAccount? }
  | received _ event => { billing with usage := billing.usage.observe codec event }
  | completed _ target =>
    { billing with
      usageProviderAccount := target.providerAccount?
      executedProviderAccount := target.providerAccount? }
  | _ => billing

namespace RunState

def record (s : RunState) (effect : Effect) : RunState :=
  { s with trace := s.trace ++ [effect] }

def recordBilled (codec : Codec) (ctx : RequestContext) (s : RunState) (effect : Effect) :
    RunState :=
  { s.record effect with billing := effect.bill codec ctx s.billing }

end RunState

/-! ## The oracle of an attempt -/

/-- One turn of the event loop, as the provider and the client decide it. -/
inductive StreamStep where
  /-- The stream yields an event; `delivered` is whether the client still takes it. -/
  | item (event : StreamEvent) (delivered : Bool)
  | failed (error : KeyComputeError)
  /-- The client is gone. -/
  | disconnected
  /-- The attempt is dropped: the quota lease is lost, or the execution times out. -/
  | dropped

/-- `UpstreamFailure` of the provider crate. -/
structure UpstreamFailure where
  status : Option ℕ
  stableErrorCode : String
  retryable : Bool
  sanitizedSummary : String

/-- How the call of the provider ends; `polled` is whether it had begun. -/
inductive Connection where
  | disconnected (polled : Bool)
  | dropped (polled : Bool)
  | failure (failure : UpstreamFailure)
  /-- A response and its stream, which ends after the listed steps. -/
  | response (status : ℕ) (body : List StreamStep)

structure AttemptEnv where
  authority : Except KeyComputeError Unit
  connection : Connection

/-- `GatewayExecutor`; an optional collaborator is whether it is there. -/
structure GatewayExecutor where
  config : GatewayConfig
  codec : Codec
  providers : List String
  accountAdmission : Bool
  accountCapacity : Bool
  dispatchAuthorizer : Bool

inductive AttemptOutcome where
  | done
  | failed (error : KeyComputeError)
  | dropped

namespace GatewayExecutor

variable (g : GatewayExecutor) (ctx : RequestContext)

/-- `authorize_dispatch`, given what the authorizer answers. -/
def authorizeDispatch (answer : Except KeyComputeError Unit) : Except KeyComputeError Unit :=
  if g.dispatchAuthorizer then
    match answer with
    | .ok () => .ok ()
    | .error (.permissionDenied _) | .error (.authError _) =>
      .error (.permissionDenied "execution_authority_invalid")
    | .error _ => .error (.serviceUnavailable "execution_authority_unavailable")
  else .ok ()

/-! ## The event loop -/

def forward (slot : ℕ) (event : StreamEvent) (commits delivered : Bool) (s : RunState) :
    Turn RunState AttemptOutcome :=
  if delivered then
    .next { s.record (.sent (some slot) event) with sentContent := s.sentContent || commits }
  else .answer (.failed (.internal "Send error")) s

def httpStatusIsRetryable (status : ℕ) : Bool :=
  status = 408 ∨ status = 409 ∨ status = 429 ∨ 500 ≤ status

/-- The failure a non-success response of a native Responses request is turned into. -/
def nativeHttpFailure (status : ℕ) : KeyComputeError :=
  .upstreamFailure (some status) s!"upstream_http_{status}" (httpStatusIsRetryable status)
    s!"Upstream returned HTTP {status}"

/-- The arms of the event loop, after the usage of the event is counted. -/
def handleEvent (slot : ℕ) (target : ExecutionTarget) (event : StreamEvent) (delivered : Bool)
    (s : RunState) : Turn RunState AttemptOutcome :=
  match event with
  | .delta .. => forward slot event true delivered s
  | .usage .. | .inputUsage _ => .next s
  | .done => .answer .done (s.recordBilled g.codec ctx (.completed slot target))
  | .error _ => .answer (.failed .providerDeclaredStreamError) s
  | .raw data => forward slot event (rawEventCommitsResponse g.codec data) delivered s
  | .native native =>
    match native with
    | .openAiResponsesHttpError status _ _ => .answer (.failed (nativeHttpFailure status)) s
    | native =>
      if nativeResponsesSseIsError native then
        .answer (.failed .providerDeclaredStreamError)
          { s with deferredNativeError := some native }
      else forward slot event true delivered s

def streamTurn (slot : ℕ) (target : ExecutionTarget) (step : StreamStep) (s : RunState) :
    Turn RunState AttemptOutcome :=
  match step with
  | .disconnected => .answer (.failed (.internal "client disconnected")) s
  | .dropped => .answer .dropped s
  | .failed error => .answer (.failed error.normalizeStreamError) s
  | .item event delivered =>
    g.handleEvent ctx slot target event delivered
      (s.recordBilled g.codec ctx (.received slot event))

/-- The event loop; a stream that ends without `Done` is malformed. -/
def processStream (slot : ℕ) (target : ExecutionTarget) (body : List StreamStep) (s : RunState) :
    AttemptOutcome × RunState :=
  loop (fun _ => g.streamTurn ctx slot target)
    (fun s => (.failed (KeyComputeError.normalizeStreamError
      (.providerError "Upstream stream ended without a terminal Done event")), s)) 0 body s

/-! ## The attempt -/

/-- The call of the provider and what follows it. -/
def connect (slot : ℕ) (target : ExecutionTarget) (includeStreamUsage : Bool)
    (connection : Connection) (s : RunState) : AttemptOutcome × RunState :=
  let dispatched := s.record (.dispatched slot target includeStreamUsage)
  match connection with
  | .disconnected polled =>
    (.failed (.internal "client disconnected"), if polled then dispatched else s)
  | .dropped polled => (.dropped, if polled then dispatched else s)
  | .failure failure =>
    (.failed (.upstreamFailure failure.status failure.stableErrorCode failure.retryable
      failure.sanitizedSummary), dispatched)
  | .response status body =>
    let s :=
      if 200 ≤ status ∧ status < 300 then
        dispatched.recordBilled g.codec ctx (.accepted slot target)
      else dispatched
    g.processStream ctx slot target body s

def tryExecute (slot : ℕ) (target : ExecutionTarget) (env : AttemptEnv) (s : RunState) :
    AttemptOutcome × RunState :=
  match target with
  | .nodeDispatch _ =>
    (.failed (.internal "Node execution not supported in stream executor"), s)
  | .upstreamAccount provider accountId _ _ _ =>
    if provider ∉ g.providers then
      (.failed (.internal s!"Provider {provider} not found"), s)
    else
      let s :=
        if ctx.nativeOpenaiResponsesRequest then { s with deferredNativeError := none } else s
      match g.authorizeDispatch env.authority with
      | .error error => (.failed error, s)
      | .ok () =>
        g.connect ctx slot target
          (decide (accountId ∉ s.progress.streamUsageUnsupported)) env.connection s

end GatewayExecutor

/-! ## What an attempt adds to a run -/

/-- The state `s'` is `s` after the effects, and what depends on effects follows them. -/
structure Extends (codec : Codec) (ctx : RequestContext) (s s' : RunState)
    (effects : List Effect) : Prop where
  trace : s'.trace = s.trace ++ effects
  sentContent : s'.sentContent = (s.sentContent || effects.any (Effect.sendsContent codec))
  billing : s'.billing = effects.foldl (Effect.bill codec ctx) s.billing
  /-- A deferred event is an error. -/
  deferred : ∀ event, s'.deferredNativeError = some event →
    event.isError = true ∨ s.deferredNativeError = some event

section Extends

variable {codec : Codec} {ctx : RequestContext} {s s' s'' : RunState} {effects more : List Effect}

theorem Extends.refl (codec : Codec) (ctx : RequestContext) (s : RunState) :
    Extends codec ctx s s [] :=
  ⟨(List.append_nil _).symm, (Bool.or_false _).symm, rfl, fun _ h => .inr h⟩

theorem Extends.trans (h : Extends codec ctx s s' effects) (h' : Extends codec ctx s' s'' more) :
    Extends codec ctx s s'' (effects ++ more) where
  trace := by rw [h'.trace, h.trace, List.append_assoc]
  sentContent := by rw [h'.sentContent, h.sentContent, List.any_append, Bool.or_assoc]
  billing := by rw [h'.billing, h.billing, List.foldl_append]
  deferred := by
    intro event hevent
    rcases h'.deferred event hevent with herror | hbefore
    · exact .inl herror
    · exact h.deferred event hbefore

theorem extends_record {effect : Effect} (hquiet : effect.sendsContent codec = false)
    (hbill : ∀ billing, effect.bill codec ctx billing = billing) :
    Extends codec ctx s (s.record effect) [effect] where
  trace := rfl
  sentContent := by
    show s.sentContent = _
    simp [hquiet]
  billing := (hbill s.billing).symm
  deferred := fun _ h => .inr h

theorem extends_recordBilled {effect : Effect} (hquiet : effect.sendsContent codec = false) :
    Extends codec ctx s (s.recordBilled codec ctx effect) [effect] where
  trace := rfl
  sentContent := by
    show s.sentContent = _
    simp [hquiet]
  billing := rfl
  deferred := fun _ h => .inr h

theorem extends_of_deferred {event : NativeStreamEvent} (herror : event.isError = true) :
    Extends codec ctx s { s with deferredNativeError := some event } [] where
  trace := (List.append_nil _).symm
  sentContent := (Bool.or_false _).symm
  billing := rfl
  deferred := by
    intro event' h
    cases h
    exact .inl herror

end Extends

def Effect.OfStream (slot : ℕ) (target : ExecutionTarget) (body : List StreamStep) : Effect → Prop
  | received slot' event => slot' = slot ∧ ∃ delivered, .item event delivered ∈ body
  | sent source _ => source = some slot
  | completed slot' target' =>
    slot' = slot ∧ target' = target ∧ ∃ delivered, .item .done delivered ∈ body
  | _ => False

/-- **The effects of an attempt**: nothing, a call, or a call and the events of its response. -/
inductive Attempted (slot : ℕ) (target : ExecutionTarget) (connection : Connection) :
    List Effect → Prop
  | nothing : Attempted slot target connection []
  | called (includeStreamUsage : Bool) :
      Attempted slot target connection [.dispatched slot target includeStreamUsage]
  | accepted (includeStreamUsage : Bool) {status : ℕ} {body : List StreamStep}
      {stream : List Effect} (hresponse : connection = .response status body)
      (hstatus : 200 ≤ status ∧ status < 300)
      (hstream : ∀ effect ∈ stream, effect.OfStream slot target body) :
      Attempted slot target connection
        (.dispatched slot target includeStreamUsage :: .accepted slot target :: stream)
  | rejected (includeStreamUsage : Bool) {status : ℕ} {body : List StreamStep}
      {stream : List Effect} (hresponse : connection = .response status body)
      (hstatus : ¬ (200 ≤ status ∧ status < 300))
      (hstream : ∀ effect ∈ stream, effect.OfStream slot target body) :
      Attempted slot target connection (.dispatched slot target includeStreamUsage :: stream)

theorem Attempted.effect_cases {slot : ℕ} {target : ExecutionTarget} {connection : Connection}
    {effects : List Effect} {effect : Effect} (h : Attempted slot target connection effects)
    (hmem : effect ∈ effects) :
    (∃ includeStreamUsage, effect = .dispatched slot target includeStreamUsage) ∨
      effect = .accepted slot target ∨
      ∃ status body, connection = .response status body ∧ effect.OfStream slot target body := by
  cases h with
  | nothing => exact absurd hmem List.not_mem_nil
  | called includeStreamUsage => exact .inl ⟨_, List.mem_singleton.mp hmem⟩
  | accepted | rejected => grind

/-- The trace of a completed attempt ends with the provider's `Done`. -/
def EndsDone (slot : ℕ) (target : ExecutionTarget) (effects : List Effect) : Prop :=
  ∃ before, effects = before ++ [.received slot .done, .completed slot target]

theorem EndsDone.append_left {slot : ℕ} {target : ExecutionTarget} {effects : List Effect}
    (h : EndsDone slot target effects) (before : List Effect) :
    EndsDone slot target (before ++ effects) := by
  obtain ⟨before', rfl⟩ := h
  exact ⟨before ++ before', by rw [List.append_assoc]⟩

namespace GatewayExecutor

variable {g : GatewayExecutor} {ctx : RequestContext} {slot : ℕ} {target : ExecutionTarget}
  {body : List StreamStep} {s s' : RunState} {effects before : List Effect}

/-- What the event loop has done to the state it began with. -/
structure Streamed (g : GatewayExecutor) (ctx : RequestContext) (slot : ℕ)
    (target : ExecutionTarget) (body : List StreamStep) (s s' : RunState)
    (effects : List Effect) : Prop where
  extends_ : Extends g.codec ctx s s' effects
  ofStream : ∀ effect ∈ effects, effect.OfStream slot target body
  progress : s'.progress = s.progress

theorem Streamed.refl : Streamed g ctx slot target body s s [] :=
  ⟨Extends.refl _ _ _, fun _ h => absurd h List.not_mem_nil, rfl⟩

theorem Streamed.trans {s'' : RunState} {more : List Effect}
    (h : Streamed g ctx slot target body s s' effects)
    (h' : Streamed g ctx slot target body s' s'' more) :
    Streamed g ctx slot target body s s'' (effects ++ more) where
  extends_ := h.extends_.trans h'.extends_
  ofStream := by
    intro effect hmem
    rcases List.mem_append.mp hmem with hleft | hright
    · exact h.ofStream effect hleft
    · exact h'.ofStream effect hright
  progress := h'.progress.trans h.progress

/-- What a turn of the loop guarantees, where `before` are the effects it has had so far. -/
def StreamTurn (g : GatewayExecutor) (ctx : RequestContext) (slot : ℕ)
    (target : ExecutionTarget) (body : List StreamStep) (before : List Effect) (s : RunState) :
    Turn RunState AttemptOutcome → Prop
  | .next s' | .leave s' => ∃ effects, Streamed g ctx slot target body s s' effects
  | .answer outcome s' => ∃ effects, Streamed g ctx slot target body s s' effects ∧
      (outcome = .done → EndsDone slot target (before ++ effects))

variable {event : StreamEvent}

theorem forward_spec {commits delivered : Bool} (hcommits : commits = event.isContent g.codec) :
    StreamTurn g ctx slot target body before s (forward slot event commits delivered s) := by
  unfold forward
  split
  · refine ⟨[.sent (some slot) event], ⟨⟨rfl, ?_, rfl, fun _ h => .inr h⟩, ?_, rfl⟩⟩
    · simp [Effect.sendsContent, hcommits]
    · intro effect hmem
      rw [List.mem_singleton.mp hmem]
      exact rfl
  · exact ⟨[], Streamed.refl, nofun⟩

theorem handleEvent_spec {delivered : Bool} (hbody : .item event delivered ∈ body) :
    StreamTurn g ctx slot target body [.received slot event] s
      (g.handleEvent ctx slot target event delivered s) := by
  cases event with
  | delta content finishReason => exact forward_spec rfl
  | usage | inputUsage => exact ⟨[], Streamed.refl⟩
  | done =>
    refine ⟨[.completed slot target], ⟨extends_recordBilled rfl, ?_, rfl⟩, fun _ => ⟨[], rfl⟩⟩
    intro effect hmem
    rw [List.mem_singleton.mp hmem]
    exact ⟨rfl, rfl, delivered, hbody⟩
  | error message => exact ⟨[], Streamed.refl, nofun⟩
  | raw data => exact forward_spec rfl
  | native event =>
    -- an HTTP error ends the attempt; an error frame is kept for the end of the run
    have hframe : ∀ native : NativeStreamEvent, native.isError = nativeResponsesSseIsError native →
        StreamTurn g ctx slot target body [.received slot (.native event)] s
          (if nativeResponsesSseIsError native then
            .answer (.failed .providerDeclaredStreamError)
              { s with deferredNativeError := some native }
          else forward slot (.native native) true delivered s) := by
      intro native hnative
      split
      · rename_i herror
        refine ⟨[], ⟨extends_of_deferred (hnative.trans herror), ?_, rfl⟩, nofun⟩
        exact fun _ h => absurd h List.not_mem_nil
      · grind [forward_spec, StreamEvent.isContent]
    cases event with
    | openAiResponsesHttpError status headers text => exact ⟨[], Streamed.refl, nofun⟩
    | openAiChatJson json => exact hframe (.openAiChatJson json) rfl
    | openAiChatSse data => exact hframe (.openAiChatSse data) rfl
    | openAiResponsesJson json => exact hframe (.openAiResponsesJson json) rfl
    | openAiResponsesSse name data => exact hframe (.openAiResponsesSse name data) rfl

theorem streamTurn_spec {step : StreamStep} (hbody : step ∈ body) :
    StreamTurn g ctx slot target body [] s (g.streamTurn ctx slot target step s) := by
  cases step with
  | disconnected | dropped | failed => exact ⟨[], Streamed.refl, nofun⟩
  | item event delivered =>
    have hreceived : Streamed g ctx slot target body s
        (s.recordBilled g.codec ctx (.received slot event)) [.received slot event] := by
      refine ⟨extends_recordBilled rfl, ?_, rfl⟩
      intro effect hmem
      rw [List.mem_singleton.mp hmem]
      exact ⟨rfl, delivered, hbody⟩
    have hhandle : StreamTurn g ctx slot target body [.received slot event]
        (s.recordBilled g.codec ctx (.received slot event)) _ := handleEvent_spec hbody
    rw [streamTurn]
    cases hturn : g.handleEvent ctx slot target event delivered
        (s.recordBilled g.codec ctx (.received slot event)) with
    | next s' =>
      rw [hturn] at hhandle
      obtain ⟨effects, heffects⟩ := hhandle
      exact ⟨_, hreceived.trans heffects⟩
    | leave s' =>
      rw [hturn] at hhandle
      obtain ⟨effects, heffects⟩ := hhandle
      exact ⟨_, hreceived.trans heffects⟩
    | answer outcome s' =>
      rw [hturn] at hhandle
      obtain ⟨effects, heffects, hdone⟩ := hhandle
      exact ⟨_, hreceived.trans heffects, hdone⟩

def StreamResult (g : GatewayExecutor) (ctx : RequestContext) (slot : ℕ)
    (target : ExecutionTarget) (body : List StreamStep) (s : RunState)
    (r : AttemptOutcome × RunState) : Prop :=
  ∃ effects, Streamed g ctx slot target body s r.2 effects ∧
    (r.1 = .done → EndsDone slot target effects)

theorem processStream_spec (body : List StreamStep) (s : RunState) :
    StreamResult g ctx slot target body s (g.processStream ctx slot target body s) := by
  unfold processStream
  refine loop_rule (I := fun _ s' => ∃ effects, Streamed g ctx slot target body s s' effects)
    ?_ ?_ ⟨[], Streamed.refl⟩
  · intro i step s' hstep hsofar
    obtain ⟨effects, hsofar⟩ := hsofar
    have hturn : StreamTurn g ctx slot target body [] s' (g.streamTurn ctx slot target step s') :=
      streamTurn_spec (List.mem_of_getElem? hstep)
    cases hresult : g.streamTurn ctx slot target step s' with
    | next s'' =>
      rw [hresult] at hturn
      obtain ⟨more, hmore⟩ := hturn
      exact ⟨_, hsofar.trans hmore⟩
    | leave s'' =>
      rw [hresult] at hturn
      obtain ⟨more, hmore⟩ := hturn
      exact ⟨_, hsofar.trans hmore, nofun⟩
    | answer outcome s'' =>
      rw [hresult] at hturn
      obtain ⟨more, hmore, hdone⟩ := hturn
      refine ⟨_, hsofar.trans hmore, ?_⟩
      intro houtcome
      exact (hdone houtcome).append_left effects
  · intro s' hsofar
    obtain ⟨effects, hsofar⟩ := hsofar
    exact ⟨effects, hsofar, nofun⟩

structure AttemptSpec (g : GatewayExecutor) (ctx : RequestContext) (slot : ℕ)
    (target : ExecutionTarget) (connection : Connection) (s : RunState)
    (r : AttemptOutcome × RunState) (effects : List Effect) : Prop where
  extends_ : Extends g.codec ctx s r.2 effects
  attempted : Attempted slot target connection effects
  progress : r.2.progress = s.progress
  done : r.1 = .done → EndsDone slot target effects

theorem extends_dispatched (includeStreamUsage : Bool) :
    Extends g.codec ctx s (s.record (.dispatched slot target includeStreamUsage))
      [.dispatched slot target includeStreamUsage] :=
  extends_record rfl fun _ => rfl

theorem connect_spec (includeStreamUsage : Bool) (connection : Connection) (s : RunState) :
    ∃ effects, AttemptSpec g ctx slot target connection s
      (g.connect ctx slot target includeStreamUsage connection s) effects := by
  have hdispatched : Extends g.codec ctx s
      (s.record (.dispatched slot target includeStreamUsage)) _ := extends_dispatched _
  cases connection with
  | disconnected polled | dropped polled =>
    cases polled with
    | false => exact ⟨[], Extends.refl _ _ _, .nothing, rfl, nofun⟩
    | true => exact ⟨_, hdispatched, .called includeStreamUsage, rfl, nofun⟩
  | failure failure => exact ⟨_, hdispatched, .called includeStreamUsage, rfl, nofun⟩
  | response status body =>
    rw [connect]
    by_cases hstatus : 200 ≤ status ∧ status < 300
    · simp only [if_pos hstatus]
      have haccepted : Extends g.codec ctx (s.record (.dispatched slot target includeStreamUsage))
          ((s.record (.dispatched slot target includeStreamUsage)).recordBilled g.codec ctx
            (.accepted slot target)) [.accepted slot target] := extends_recordBilled rfl
      obtain ⟨effects, hstream, hdone⟩ : StreamResult g ctx slot target body _ _ :=
        processStream_spec body
          ((s.record (.dispatched slot target includeStreamUsage)).recordBilled
          g.codec ctx (.accepted slot target))
      refine ⟨_, (hdispatched.trans haccepted).trans hstream.extends_,
        .accepted includeStreamUsage rfl hstatus hstream.ofStream, hstream.progress, ?_⟩
      intro houtcome
      exact (hdone houtcome).append_left _
    · simp only [if_neg hstatus]
      obtain ⟨effects, hstream, hdone⟩ : StreamResult g ctx slot target body _ _ :=
        processStream_spec body (s.record (.dispatched slot target includeStreamUsage))
      refine ⟨_, hdispatched.trans hstream.extends_,
        .rejected includeStreamUsage rfl hstatus hstream.ofStream, hstream.progress, ?_⟩
      intro houtcome
      exact (hdone houtcome).append_left _

theorem tryExecute_spec (g : GatewayExecutor) (ctx : RequestContext) (slot : ℕ)
    (target : ExecutionTarget) (env : AttemptEnv) (s : RunState) :
    ∃ effects, AttemptSpec g ctx slot target env.connection s
      (g.tryExecute ctx slot target env s) effects := by
  have hidle : ∀ error, AttemptSpec g ctx slot target env.connection s (.failed error, s) [] :=
    fun _ => ⟨Extends.refl _ _ _, .nothing, rfl, nofun⟩
  cases target with
  | nodeDispatch model => exact ⟨[], hidle _⟩
  | upstreamAccount provider accountId endpoint key selection =>
    rw [tryExecute]
    by_cases hprovider : provider ∉ g.providers
    · rw [if_pos hprovider]
      exact ⟨[], hidle _⟩
    · rw [if_neg hprovider]
      -- a native request forgets the error frame of an earlier attempt
      generalize hcleared : (if ctx.nativeOpenaiResponsesRequest = true then
        { s with deferredNativeError := none } else s) = cleared
      have hforget : Extends g.codec ctx s cleared [] := by
        rw [← hcleared]
        split
        · exact ⟨(List.append_nil _).symm, (Bool.or_false _).symm, rfl, nofun⟩
        · exact Extends.refl _ _ _
      have hprogress : cleared.progress = s.progress := by
        rw [← hcleared]
        split <;> rfl
      cases g.authorizeDispatch env.authority with
      | error error => exact ⟨[], hforget, .nothing, hprogress, nofun⟩
      | ok _ =>
        obtain ⟨effects, hspec⟩ : ∃ effects, AttemptSpec g ctx slot
            (.upstreamAccount provider accountId endpoint key selection) env.connection cleared
            _ effects :=
          connect_spec (decide (accountId ∉ cleared.progress.streamUsageUnsupported)) _ _
        exact ⟨effects, hforget.trans hspec.extends_, hspec.attempted,
          hspec.progress.trans hprogress, hspec.done⟩

/-! ## The outcome is the upstream's -/

theorem handleEvent_sameEnd {delivered : Bool} (s t : RunState) :
    (g.handleEvent ctx slot target event delivered s).SameEnd
      (g.handleEvent ctx slot target event delivered t) := by
  have hforward : ∀ (event : StreamEvent) (commits : Bool),
      (forward slot event commits delivered s).SameEnd
        (forward slot event commits delivered t) := by
    intro event commits
    cases delivered with
    | false => exact rfl
    | true => exact trivial
  cases event with
  | delta content finishReason => exact hforward _ _
  | usage | inputUsage => exact trivial
  | done | error => exact rfl
  | raw data => exact hforward _ _
  | native event =>
    have hframe : ∀ native : NativeStreamEvent,
        Turn.SameEnd
          (if nativeResponsesSseIsError native then
            .answer (.failed .providerDeclaredStreamError)
              { s with deferredNativeError := some native }
          else forward slot (.native native) true delivered s)
          (if nativeResponsesSseIsError native then
            .answer (.failed .providerDeclaredStreamError)
              { t with deferredNativeError := some native }
          else forward slot (.native native) true delivered t) := by
      intro native
      split
      · exact rfl
      · exact hforward _ _
    cases event with
    | openAiResponsesHttpError status headers text => exact rfl
    | openAiChatJson json => exact hframe (.openAiChatJson json)
    | openAiChatSse data => exact hframe (.openAiChatSse data)
    | openAiResponsesJson json => exact hframe (.openAiResponsesJson json)
    | openAiResponsesSse name data => exact hframe (.openAiResponsesSse name data)

theorem processStream_outcome (body : List StreamStep) (s t : RunState) :
    (g.processStream ctx slot target body s).1 = (g.processStream ctx slot target body t).1 := by
  apply loop_fst_eq
  · intro i step s t
    cases step with
    | disconnected | dropped | failed => exact rfl
    | item event delivered => exact handleEvent_sameEnd _ _
  · exact fun _ _ => rfl

/-- **What the upstream makes of an attempt**, whatever happened in the run before. -/
def upstreamOutcome (g : GatewayExecutor) (ctx : RequestContext) (slot : ℕ)
    (target : ExecutionTarget) (env : AttemptEnv) : AttemptOutcome :=
  (g.tryExecute ctx slot target env {}).1

theorem connect_outcome {includeStreamUsage includeStreamUsage' : Bool} {connection : Connection}
    (s t : RunState) : (g.connect ctx slot target includeStreamUsage connection s).1 =
      (g.connect ctx slot target includeStreamUsage' connection t).1 := by
  cases connection with
  | disconnected | dropped | failure => rfl
  | response status body => exact processStream_outcome body _ _

theorem tryExecute_outcome (env : AttemptEnv) (s : RunState) :
    (g.tryExecute ctx slot target env s).1 = g.upstreamOutcome ctx slot target env := by
  cases target with
  | nodeDispatch model => rfl
  | upstreamAccount provider accountId endpoint key selection =>
      grind [upstreamOutcome, tryExecute, connect_outcome]

end GatewayExecutor

end KeyCompute.Gateway
