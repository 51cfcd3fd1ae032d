import NodeAgent.Pinning.Tick

/-!
# Bonds and stored content

A tick hands the signer at most one request, and only after every earlier call
has succeeded.  A request with value posts the bond of a seal that was made
from the stored replica; a proof answers the challenge that was read.
-/

namespace NodeAgent.Pinning

open BigEndian Chainio Interaction

/-- The request that an event hands to the signer. -/
def requestOf : PinEvent → Option PinSignatureRequest
  | ⟨.request request, _⟩ => some request
  | _ => none

/-- The inputs that an operation hands to the sealer. -/
def inputsOf : PinOp → Option SealInputs
  | .seal inputs => some inputs
  | .provePost inputs _ => some inputs
  | _ => none

def requests (trace : List PinEvent) : List PinSignatureRequest :=
  trace.filterMap requestOf

theorem requests_of_unsent {events : List PinEvent}
    (unsent : ∀ event ∈ events, requestOf event = none) :
    requests events = [] :=
  List.filterMap_eq_nil_iff.mpr unsent

/-- A call of the chain view, the replica source or the sealer that failed. -/
inductive Failed : PinEvent → Prop
  | registered {me : Address} {error : ViewError} :
      Failed ⟨.registered me, .error error⟩
  | pin {me : Address} {cid : Word} {sector : Nat} {error : ViewError} :
      Failed ⟨.pin me cid sector, .error error⟩
  | slot {cid : Word} {sector : Nat} {error : ViewError} :
      Failed ⟨.slot cid sector, .error error⟩
  | currentBlock {error : ViewError} : Failed ⟨.currentBlock, .error error⟩
  | unallocatedSlotFunding {error : ViewError} :
      Failed ⟨.unallocatedSlotFunding, .error error⟩
  | replica {cid : Word} {sector : Nat} {error : ViewError} :
      Failed ⟨.replica cid sector, .error error⟩
  | «seal» {inputs : SealInputs} {error : SealerError} :
      Failed ⟨.seal inputs, .error error⟩
  | provePost {inputs : SealInputs} {index : Nat} {error : SealerError} :
      Failed ⟨.provePost inputs index, .error error⟩

/-- The reads of the tick said this. -/
structure PinReads.Answered (reads : PinReads) (config : PinConfig)
    (cid : Word) (sector : Nat) (events : List PinEvent) : Prop where
  registered : ⟨.registered config.me, .ok reads.registered⟩ ∈ events
  pin : ⟨.pin config.me cid sector, .ok reads.pin⟩ ∈ events
  slot : ⟨.slot cid sector, .ok reads.slot⟩ ∈ events
  currentBlock : ⟨.currentBlock, .ok reads.currentBlock⟩ ∈ events
  unallocatedSlotFunding :
    ⟨.unallocatedSlotFunding, .ok reads.unallocatedSlotFunding⟩ ∈ events

section Hashes

variable [HashFunctions]

/-- The inputs were derived from the stored replica. -/
def Derived (config : PinConfig) (cid : Word) (sector : Nat)
    (inputs : SealInputs) (events : List PinEvent) : Prop :=
  ∃ bytes, bytes ≠ [] ∧ ⟨.replica cid sector, .ok bytes⟩ ∈ events ∧
    sealInputs config cid sector bytes = .ok inputs

theorem Derived.mono {config : PinConfig} {cid : Word} {sector : Nat}
    {inputs : SealInputs} {events after : List PinEvent}
    (derived : Derived config cid sector inputs events)
    (grown : events ⊆ after) : Derived config cid sector inputs after := by
  obtain ⟨bytes, present, read, inputs⟩ := derived
  exact ⟨bytes, present, grown read, inputs⟩

/-- The stored replica was read, and the sealer sealed exactly its bytes. -/
structure SealedReplica (config : PinConfig) (cid : Word) (sector : Nat)
    (inputs : SealInputs) (sealed : SealArtifacts) (events : List PinEvent) :
    Prop where
  bound : Derived config cid sector inputs events
  sealedBy : ⟨.seal inputs, .ok sealed⟩ ∈ events

theorem SealedReplica.mono {config : PinConfig} {cid : Word} {sector : Nat}
    {inputs : SealInputs} {sealed : SealArtifacts} {events after : List PinEvent}
    (stored : SealedReplica config cid sector inputs sealed events)
    (grown : events ⊆ after) :
    SealedReplica config cid sector inputs sealed after :=
  ⟨stored.bound.mono grown, grown stored.sealedBy⟩

/-- What precedes a request that posts the bond, and what it carries. -/
inductive BondPosted (config : PinConfig) (cid : Word) (sector : Nat)
    (events : List PinEvent) (request : PinSignatureRequest) : Prop
  | intro (reads : PinReads) (inputs : SealInputs) (sealed : SealArtifacts)
      (answered : reads.Answered config cid sector events)
      (registered : reads.registered = true)
      (fresh : reads.pin.status = .none)
      (room : reads.slot.liveCount < config.quorum)
      (funded : reads.slot.funded = true ∨
        FixedWidth.saturatingMul 128 config.quorum config.rewardWei ≤
          reads.unallocatedSlotFunding)
      (stored : SealedReplica config cid sector inputs sealed events)
      (value : request.valueWei = config.bondWei)
      (calldata : request.calldata =
        encodeSealCommit cid sector sealed.replicaId inputs.epoch sealed.commD
          sealed.commR sealed.commC sealed.porepProof)

/-- What precedes a proof, and what it carries. -/
inductive ChallengeAnswered (config : PinConfig) (cid : Word) (sector : Nat)
    (events : List PinEvent) (request : PinSignatureRequest) : Prop
  | intro (reads : PinReads) (inputs : SealInputs) (sealed : SealArtifacts)
      (index : Nat) (proof : Bytes)
      (answered : reads.Answered config cid sector events)
      (active : reads.pin.status = .active)
      (challenged : reads.pin.challengeOpen = true)
      (inTime : reads.currentBlock ≤ reads.pin.challengeDeadline)
      (stored : SealedReplica config cid sector inputs sealed events)
      (proved : ⟨.provePost inputs index, .ok proof⟩ ∈ events)
      (challengedNode :
        wordValue reads.pin.challengeNonce < config.challengeN.toNat →
          index = wordValue reads.pin.challengeNonce)
      (deadline : request.expiresBlock = reads.pin.challengeDeadline)
      (calldata : request.calldata =
        encodeSubmitPost cid sector sealed.commR sealed.commC
          reads.pin.challengeNonce proof)

/-- What a request to the signer stands for. -/
structure Sends (config : PinConfig) (cid : Word) (sector : Nat)
    (events : List PinEvent) (request : PinSignatureRequest) : Prop where
  value : request.valueWei ≠ 0 → request.intent = .sealCommit
  bond : request.intent = .sealCommit →
    BondPosted config cid sector events request
  answer : request.intent = .submitPoSt →
    ChallengeAnswered config cid sector events request

end Hashes

/-- No request was made, and no call failed. -/
structure Clean (events : List PinEvent) : Prop where
  unsent : ∀ event ∈ events, requestOf event = none
  sound : ∀ event ∈ events, ¬Failed event

theorem Clean.nil : Clean [] := ⟨nofun, nofun⟩

theorem Clean.append {events : List PinEvent} {event : PinEvent}
    (clean : Clean events) (unsent : requestOf event = none)
    (sound : ¬Failed event) : Clean (events ++ [event]) := by
  constructor
  · rw [List.forall_mem_append, List.forall_mem_singleton]
    exact ⟨clean.unsent, unsent⟩
  · rw [List.forall_mem_append, List.forall_mem_singleton]
    exact ⟨clean.sound, sound⟩

/-- A seal that reverted for want of funding. -/
def RevertedUnfunded (events : List PinEvent) : Prop :=
  ∃ request reason, ⟨.request request, .error (.reverted reason)⟩ ∈ events ∧
    request.intent = .sealCommit ∧
    INSUFFICIENT_SLOT_FUNDING_REVERT.toList <:+: reason.toList

/-- The signer reported that the bond's request lost its funding. -/
def lostFunding : PinEvent → Bool
  | ⟨.request request, .error (.reverted reason)⟩ =>
      request.intent = .sealCommit ∧
        INSUFFICIENT_SLOT_FUNDING_REVERT.toList <:+: reason.toList
  | _ => false

theorem revertedUnfunded_iff {events : List PinEvent} :
    RevertedUnfunded events ↔ ∃ event ∈ events, lostFunding event = true := by
  constructor
  · intro reverted
    obtain ⟨request, reason, member, intent, unfunded⟩ := reverted
    exact ⟨_, member, by simp [lostFunding, intent, unfunded]⟩
  · intro lost
    obtain ⟨event, member, lost⟩ := lost
    unfold lostFunding at lost
    split at lost
    · obtain ⟨intent, unfunded⟩ := of_decide_eq_true lost
      exact ⟨_, _, member, intent, unfunded⟩
    · cases lost

instance (events : List PinEvent) : Decidable (RevertedUnfunded events) :=
  decidable_of_iff _ revertedUnfunded_iff.symm

/-- A seal that lost its funding is a hold. -/
def HoldsUnfunded (events : List PinEvent)
    (result : Except TickError TickOutcome) : Prop :=
  RevertedUnfunded events → result = .ok (.hold .slotUnfunded)

theorem Clean.holdsUnfunded {events : List PinEvent} (clean : Clean events)
    (result : Except TickError TickOutcome) : HoldsUnfunded events result := by
  intro reverted
  obtain ⟨request, reason, member, _⟩ := reverted
  cases clean.unsent _ member

theorem Clean.holdsUnfunded_failed {events : List PinEvent}
    (clean : Clean events) {event : PinEvent} (unsent : requestOf event = none)
    (result : Except TickError TickOutcome) :
    HoldsUnfunded (events ++ [event]) result := by
  intro reverted
  obtain ⟨request, reason, member, _⟩ := reverted
  rcases List.mem_append.mp member with earlier | last
  · cases clean.unsent _ earlier
  · rw [← List.mem_singleton.mp last] at unsent
    cases unsent

theorem Clean.holdsUnfunded_request {events : List PinEvent}
    (clean : Clean events) {request : PinSignatureRequest}
    {answer : Except PinSignerError PinTxObserved}
    {result : Except TickError TickOutcome}
    (decides : request.intent = .sealCommit → ∀ reason,
      answer = .error (.reverted reason) →
      INSUFFICIENT_SLOT_FUNDING_REVERT.toList <:+: reason.toList →
        result = .ok (.hold .slotUnfunded)) :
    HoldsUnfunded (events ++ [⟨.request request, answer⟩]) result := by
  intro reverted
  obtain ⟨other, reason, member, intent, unfunded⟩ := reverted
  rcases List.mem_append.mp member with earlier | last
  · cases clean.unsent _ earlier
  · cases List.mem_singleton.mp last
    exact decides intent reason rfl unfunded

theorem PinReads.Answered.mono {reads : PinReads} {config : PinConfig}
    {cid : Word} {sector : Nat} {events after : List PinEvent}
    (answered : reads.Answered config cid sector events)
    (grown : events ⊆ after) : reads.Answered config cid sector after where
  registered := grown answered.registered
  pin := grown answered.pin
  slot := grown answered.slot
  currentBlock := grown answered.currentBlock
  unallocatedSlotFunding := grown answered.unallocatedSlotFunding

theorem attempt_pure {ε α β : Type} {wrap : ε → TickError} {value : α}
    {next : α → PinProgram (Except TickError β)} :
    attempt wrap (pure (.ok value)) next = next value := rfl

theorem attempt_meets {ε α β : Type} {wrap : ε → TickError}
    {program : PinProgram (Except ε α)}
    {next : α → PinProgram (Except TickError β)}
    {allowed : List PinEvent → PinOp → Prop}
    {middle : List PinEvent → Except ε α → Prop}
    {post : List PinEvent → Except TickError β → Prop}
    {events : List PinEvent} (first : program.Meets allowed middle events)
    (failed : ∀ after error, middle after (.error error) →
      post after (.error (wrap error)))
    (continued : ∀ after value, middle after (.ok value) →
      (next value).Meets allowed post after) :
    (attempt wrap program next).Meets allowed post events := by
  apply Program.meets_bind first
  intro after result reached
  cases result with
  | error error => exact failed after error reached
  | ok value => exact continued after value reached

section Hashes

variable [HashFunctions]

/-- An operation is issued while nothing was sent and nothing has failed, a
request is issued for what it stands for, and the sealer gets what was derived
from the stored replica. -/
structure Allowed (config : PinConfig) (cid : Word) (sector : Nat)
    (events : List PinEvent) (op : PinOp) : Prop where
  clean : Clean events
  sends : ∀ request, op = .request request →
    Sends config cid sector events request
  derived : ∀ inputs, inputsOf op = some inputs →
    Derived config cid sector inputs events

variable {config : PinConfig} {cid : Word} {sector : Nat}
  {events : List PinEvent}

theorem Clean.allowed {op : PinOp} (clean : Clean events)
    (quiet : ∀ request, op ≠ .request request) (plain : inputsOf op = none) :
    Allowed config cid sector events op where
  clean := clean
  sends := fun request same => absurd same (quiet request)
  derived := fun inputs same => by
    rw [plain] at same
    cases same

theorem Clean.allowed_derived {op : PinOp} {inputs : SealInputs}
    (clean : Clean events) (hands : inputsOf op = some inputs)
    (derived : Derived config cid sector inputs events) :
    Allowed config cid sector events op where
  clean := clean
  sends := fun request same => by
    rw [same] at hands
    cases hands
  derived := fun other same => by
    rw [hands] at same
    cases same
    exact derived

theorem Clean.allowed_request {request : PinSignatureRequest}
    (clean : Clean events) (sends : Sends config cid sector events request) :
    Allowed config cid sector events (.request request) where
  clean := clean
  sends := fun issued same => by
    cases same
    exact sends
  derived := nofun

/-- A call that is no request ends the tick or leaves its events clean. -/
theorem Clean.attempt {ε α : Type} {wrap : ε → TickError}
    {program : PinProgram (Except ε α)} {event : Except ε α → PinEvent}
    {next : α → PinProgram (Except TickError TickOutcome)}
    (clean : Clean events)
    (called : program.Meets (Allowed config cid sector)
      (fun after answer => after = events ++ [event answer]) events)
    (unsent : ∀ answer, requestOf (event answer) = none)
    (sound : ∀ value, ¬Failed (event (.ok value)))
    (continued : ∀ value, Clean (events ++ [event (.ok value)]) →
      (next value).Meets (Allowed config cid sector) HoldsUnfunded
        (events ++ [event (.ok value)])) :
    (attempt wrap program next).Meets (Allowed config cid sector) HoldsUnfunded
      events := by
  apply attempt_meets called
  · intro after error reached
    subst reached
    exact clean.holdsUnfunded_failed (unsent _) _
  · intro after value reached
    subst reached
    exact continued value (clean.append (unsent _) (sound value))

theorem sealReplica_meets
    {next : SealInputs → SealArtifacts →
      PinProgram (Except TickError TickOutcome)}
    (clean : Clean events)
    (continued : ∀ inputs sealed after, Clean after → events ⊆ after →
      SealedReplica config cid sector inputs sealed after →
      (next inputs sealed).Meets (Allowed config cid sector) HoldsUnfunded
        after) :
    (sealReplica config cid sector next).Meets (Allowed config cid sector)
      HoldsUnfunded events := by
  rw [sealReplica]
  refine clean.attempt (Program.meets_perform (clean.allowed nofun rfl))
    (fun _ => rfl) (fun _ => nofun) fun bytes read => ?_
  cases derived : sealInputs config cid sector bytes with
  | error error => exact read.holdsUnfunded _
  | ok inputs =>
      have bound : Derived config cid sector inputs
          (events ++ [⟨.replica cid sector, .ok bytes⟩]) :=
        ⟨bytes, (sealInputs_eq_ok_iff.mp derived).1, by simp, derived⟩
      rw [attempt_pure]
      refine read.attempt
        (Program.meets_perform (read.allowed_derived rfl bound))
        (fun _ => rfl) (fun _ => nofun) fun sealed after => ?_
      apply continued inputs sealed _ after
      · intro event member
        simp [member]
      · exact ⟨bound.mono (List.subset_append_left _ _), by simp⟩

theorem attempt_request_meets {request : PinSignatureRequest}
    {next : PinTxObserved → PinProgram (Except TickError TickOutcome)}
    (clean : Clean events)
    (sends : Sends config cid sector events request)
    (other : request.intent ≠ .sealCommit)
    (continued : ∀ observed, ∃ outcome, next observed = pure (.ok outcome)) :
    (attempt TickError.sign (Program.perform (PinOp.request request))
      next).Meets (Allowed config cid sector) HoldsUnfunded events := by
  apply attempt_meets (Program.meets_perform (clean.allowed_request sends))
  · intro after error reached
    subst reached
    exact clean.holdsUnfunded_request fun intent => absurd intent other
  · intro after observed reached
    subst reached
    obtain ⟨outcome, done⟩ := continued observed
    rw [done]
    exact clean.holdsUnfunded_request fun intent => absurd intent other

theorem act_meets {reads : PinReads} {action : PinAction}
    (clean : Clean events)
    (answered : reads.Answered config cid sector events)
    (warranted : Warranted (planInput config cid sector reads) action) :
    (act config (planInput config cid sector reads) action).Meets
      (Allowed config cid sector) HoldsUnfunded events := by
  cases action with
  | idle => exact clean.holdsUnfunded _
  | hold reason => exact clean.holdsUnfunded _
  | sign request =>
      obtain ⟨noValue, notSeal, notProof⟩ := warranted
      apply attempt_request_meets clean ?_ notSeal fun observed => ⟨_, rfl⟩
      exact {
        value := fun value => absurd noValue value
        bond := fun intent => absurd intent notSeal
        answer := fun intent => absurd intent notProof }
  | «seal» cid' sector' =>
      obtain ⟨rfl, rfl, plans⟩ := warranted
      apply sealReplica_meets clean
      intro inputs sealed after cleanAfter grown stored
      refine Program.meets_bind
        (Program.meets_perform (cleanAfter.allowed_request ?_)) ?_
      · exact {
          value := fun _ => rfl
          bond := fun _ => .intro reads inputs sealed (answered.mono grown)
            plans.registered plans.fresh plans.room plans.funded stored rfl rfl
          answer := nofun }
      · intro _ answer reached
        subst reached
        cases answer with
        | ok observed => exact cleanAfter.holdsUnfunded_request fun _ _ => nofun
        | error error =>
            cases error with
            | noSigner => exact cleanAfter.holdsUnfunded_request fun _ _ => nofun
            | declined message =>
                exact cleanAfter.holdsUnfunded_request fun _ _ => nofun
            | reverted reason =>
                dsimp only
                split
                · exact cleanAfter.holdsUnfunded_request fun _ _ _ _ => rfl
                · rename_i funded
                  apply cleanAfter.holdsUnfunded_request
                  intro _ other same unfunded
                  cases same
                  exact absurd unfunded funded
  | prove cid' sector' nonce deadline =>
      obtain ⟨rfl, rfl, rfl, rfl, plans⟩ := warranted
      apply sealReplica_meets clean
      intro inputs sealed after cleanAfter grown stored
      refine cleanAfter.attempt
        (Program.meets_perform (cleanAfter.allowed_derived rfl stored.bound))
        (fun _ => rfl) (fun _ => nofun) fun proof proved => ?_
      have grownAgain := List.subset_append_left after
        [⟨.provePost inputs (nonceToIndex reads.pin.challengeNonce
          config.challengeN), .ok proof⟩]
      refine attempt_request_meets proved ?_ ?_ fun observed => ⟨_, rfl⟩
      · exact {
          value := fun value => absurd rfl value
          bond := nofun
          answer := fun _ => .intro reads inputs sealed _ proof
            (answered.mono (List.Subset.trans grown grownAgain)) plans.active
            plans.challenged plans.inTime (stored.mono grownAgain)
            (List.mem_append_right _ (List.mem_singleton.mpr rfl))
            nonceToIndex_eq rfl rfl }
      · intro intent
        cases intent

theorem tickPin_meets (config : PinConfig) (cid : Word) (sector : Nat) :
    (tickPin config cid sector).Meets (Allowed config cid sector)
      HoldsUnfunded [] := by
  rw [tickPin]
  refine Clean.nil.attempt (Program.meets_perform (Clean.nil.allowed nofun rfl))
    (fun _ => rfl) (fun _ => nofun) fun registered clean => ?_
  refine clean.attempt (Program.meets_perform (clean.allowed nofun rfl))
    (fun _ => rfl) (fun _ => nofun) fun pin clean => ?_
  refine clean.attempt (Program.meets_perform (clean.allowed nofun rfl))
    (fun _ => rfl) (fun _ => nofun) fun slot clean => ?_
  refine clean.attempt (Program.meets_perform (clean.allowed nofun rfl))
    (fun _ => rfl) (fun _ => nofun) fun currentBlock clean => ?_
  refine clean.attempt (Program.meets_perform (clean.allowed nofun rfl))
    (fun _ => rfl) (fun _ => nofun) fun unallocatedSlotFunding clean => ?_
  apply act_meets clean ?_ (planPin_warranted _)
  constructor <;> simp

section Runs

variable {trace : List PinEvent} {result : Option (Except TickError TickOutcome)}

theorem allowed_at (traced : (tickPin config cid sector).Traces trace result)
    {before after : List PinEvent} {event : PinEvent}
    (split : trace = before ++ event :: after) :
    Allowed config cid sector before event.1 := by
  subst split
  exact (tickPin_meets config cid sector).allowed_at traced

theorem last_of_unclean
    (traced : (tickPin config cid sector).Traces trace result)
    {before after : List PinEvent} {event : PinEvent}
    (split : trace = before ++ event :: after)
    (unclean : requestOf event ≠ none ∨ Failed event) : after = [] := by
  cases after with
  | nil => rfl
  | cons next rest =>
      have again : trace = (before ++ [event]) ++ next :: rest := by
        rw [split, List.append_assoc]
        rfl
      have clean := (allowed_at traced again).clean
      have member : event ∈ before ++ [event] := by simp
      rcases unclean with sent | failed
      · exact absurd (clean.unsent event member) sent
      · exact absurd failed (clean.sound event member)

/-- The signer gets at most one request. -/
theorem requests_length_le
    (traced : (tickPin config cid sector).Traces trace result) :
    (requests trace).length ≤ 1 := by
  cases sent : trace.find? fun event => (requestOf event).isSome with
  | none =>
      rw [requests_of_unsent]
      · exact Nat.zero_le 1
      · simpa using sent
  | some event =>
      obtain ⟨isSent, before, after, split, _⟩ :=
        List.find?_eq_some_iff_append.mp sent
      rw [Option.isSome_iff_ne_none] at isSent
      have last := last_of_unclean traced split (.inl isSent)
      have clean := (allowed_at traced split).clean
      rw [split, last, requests, List.filterMap_append,
        List.filterMap_eq_nil_iff.mpr clean.unsent, List.nil_append]
      exact List.length_filterMap_le _ _

theorem requests_eq_nil
    (traced : (tickPin config cid sector).Traces trace result)
    {event : PinEvent} (member : event ∈ trace) (failed : Failed event) :
    requests trace = [] := by
  obtain ⟨before, after, split⟩ := List.append_of_mem member
  have last := last_of_unclean traced split (.inr failed)
  have clean := (allowed_at traced split).clean
  apply requests_of_unsent
  rw [split, last, List.forall_mem_append, List.forall_mem_singleton]
  refine ⟨clean.unsent, ?_⟩
  cases failed <;> rfl

end Runs

/-- One tick, whatever its calls answer.  The signer gets at most one request.
A request with value posts the bond of a seal of the stored replica on a slot
that was open and backed; a proof answers the challenge that was read.  A
failed call sends nothing, and a seal that lost its funding is a hold. -/
theorem tickPin_bonds_storedContent (config : PinConfig) (cid : Word)
    (sector : Nat) {trace : List PinEvent}
    {result : Option (Except TickError TickOutcome)}
    (traced : (tickPin config cid sector).Traces trace result) :
    (requests trace).length ≤ 1 ∧
      (∀ before request answer after,
        trace = before ++ ⟨.request request, answer⟩ :: after →
          Sends config cid sector before request) ∧
      ((∃ event ∈ trace, Failed event) → requests trace = []) ∧
      (RevertedUnfunded trace → ∀ outcome, result = some outcome →
        outcome = .ok (.hold .slotUnfunded)) := by
  refine ⟨requests_length_le traced, ?_, ?_, ?_⟩
  · intro before request answer after split
    exact (allowed_at traced split).sends request rfl
  · intro failing
    obtain ⟨event, member, failed⟩ := failing
    exact requests_eq_nil traced member failed
  · intro reverted outcome returned
    subst returned
    exact (tickPin_meets config cid sector).post_at traced reverted

end Hashes

def sampleConfig : PinConfig where
  me := List.Vector.replicate 20 0xbe
  incentives := List.Vector.replicate 20 0x1f
  chainId := 40204
  quorum := 3
  rounds := 12
  perRound := 5
  bondWei := 1000
  rewardWei := 60
  challengeN := 4

def sampleCid : Word := List.Vector.replicate 32 0x11

/-- A fresh pin on an unfunded slot with backing; the seal succeeds, and the
request reverts. -/
def fundingLost : (op : PinOp) → PinAnswer op
  | .registered _ => .ok true
  | .pin _ _ _ => .ok
      { status := .none, round := 0, missed := 0, claimed := 0, bondHeld := 0
        challengeOpen := false, challengeDeadline := 0
        challengeNonce := List.Vector.replicate 32 0 }
  | .slot _ _ => .ok { funded := false, budget := 0, liveCount := 1 }
  | .currentBlock => .ok 100
  | .unallocatedSlotFunding => .ok 180
  | .replica _ _ => .ok [1, 2, 3]
  | .seal _ => .ok
      { replicaId := List.Vector.replicate 32 1
        commD := List.Vector.replicate 32 2
        commR := List.Vector.replicate 32 3
        commC := List.Vector.replicate 32 4
        porepProof := [5, 6] }
  | .provePost _ _ => .error (.prove "unused")
  | .request _ => .error (.reverted "reverted: Insufficient slot funding")

theorem fundingLost_holds :
    let tick := (@tickPin sampleHashes sampleConfig sampleCid 7).record
      fundingLost
    RevertedUnfunded tick.1 ∧ (requests tick.1).length ≤ 1 ∧
      tick.2 = .ok (.hold .slotUnfunded) := by
  have traced := Program.traces_record fundingLost
    (@tickPin sampleHashes sampleConfig sampleCid 7)
  have safe := @tickPin_bonds_storedContent sampleHashes sampleConfig sampleCid
    7 _ _ traced
  have reverted : RevertedUnfunded
      ((@tickPin sampleHashes sampleConfig sampleCid 7).record fundingLost).1 := by
    decide +kernel
  exact ⟨reverted, safe.1, safe.2.2.2 reverted _ rfl⟩

end NodeAgent.Pinning
