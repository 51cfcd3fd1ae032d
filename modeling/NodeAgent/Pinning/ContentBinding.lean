import NodeAgent.Pinning.BondSafety

/-!
# Seals are bound to content

The inputs of a seal are a function of the sector and its stored bytes, and as
long as the hash has no collision among the preimages, one that tells different
bytes apart.  A tick that proves derives what the tick that sealed derived.
-/

namespace NodeAgent.Pinning

open BigEndian Chainio Interaction

section Hashes

variable [HashFunctions]

/-- Everything that a tick hands to the sealer, when the replica source
delivers these bytes, is derived from them. -/
theorem tickPin_derives {config : PinConfig} {cid : Word} {sector : Nat}
    {trace : List PinEvent} {result : Option (Except TickError TickOutcome)}
    (traced : (tickPin config cid sector).Traces trace result)
    {bytes : Bytes}
    (stored : ∀ answer, ⟨.replica cid sector, answer⟩ ∈ trace →
      answer = .ok bytes)
    {event : PinEvent} (member : event ∈ trace) {inputs : SealInputs}
    (hands : inputsOf event.1 = some inputs) :
    sealInputs config cid sector bytes = .ok inputs := by
  obtain ⟨before, after, split⟩ := List.append_of_mem member
  obtain ⟨delivered, _, read, derived⟩ :=
    (allowed_at traced split).derived inputs hands
  have same := stored _ (by
    rw [split]
    exact List.mem_append_left _ read)
  cases same
  exact derived

/-- The inputs of a seal and the content.  A call fails exactly without a
replica.  Without collisions, equal data means equal content, and the elements
of one call differ.  Elements are below the modulus, the identity is the
address, the deployment has no part in data and epoch, and two ticks on
unchanged bytes hand the sealer the same inputs. -/
theorem sealInputs_bound_toContent :
    (∀ call : SealCall,
      (∃ error, call.inputs = .error error) ↔ call.replica = []) ∧
    (∀ (first second : SealCall) (firstInputs secondInputs : SealInputs),
      first.inputs = .ok firstInputs → second.inputs = .ok secondInputs →
        (CollisionFree (first.preimages ++ second.preimages) →
          (firstInputs.data = secondInputs.data ↔
            first.cid = second.cid ∧ first.sector = second.sector ∧
              first.replica = second.replica)) ∧
        (firstInputs.pinnerIdentity = secondInputs.pinnerIdentity ↔
          first.config.me = second.config.me) ∧
        (first.cid = second.cid → first.sector = second.sector →
          first.replica = second.replica →
            firstInputs.data = secondInputs.data ∧
              firstInputs.epoch = secondInputs.epoch)) ∧
    (∀ (call : SealCall) (inputs : SealInputs), call.inputs = .ok inputs →
      (CollisionFree call.preimages →
        ∀ index index' : Fin 4, index ≠ index' →
          inputs.data.get index ≠ inputs.data.get index') ∧
      ∀ index : Fin 4, wordValue (inputs.data.get index) < 2 ^ 248) ∧
    ∀ (config : PinConfig) (cid : Word) (sector : Nat) (bytes : Bytes)
      (first second : List PinEvent)
      (firstResult secondResult : Option (Except TickError TickOutcome)),
      (tickPin config cid sector).Traces first firstResult →
      (tickPin config cid sector).Traces second secondResult →
      (∀ answer, ⟨.replica cid sector, answer⟩ ∈ first ++ second →
        answer = .ok bytes) →
      ∀ event ∈ first, ∀ event' ∈ second, ∀ inputs inputs',
        inputsOf event.1 = some inputs → inputsOf event'.1 = some inputs' →
          inputs = inputs' := by
  refine ⟨?_, ?_, ?_, ?_⟩
  · intro call
    exact sealInputs_fails_iff
  · intro first second firstInputs secondInputs firstSucceeds secondSucceeds
    exact ⟨SealCall.data_eq_iff firstSucceeds secondSucceeds,
      SealCall.identity_eq_iff firstSucceeds secondSucceeds,
      SealCall.derived_eq firstSucceeds secondSucceeds⟩
  · intro call inputs succeeds
    exact ⟨fun free _ _ => SealCall.data_distinct succeeds free,
      SealCall.data_lt succeeds⟩
  · intro config cid sector bytes first second firstResult secondResult
      firstTraced secondTraced stored event member event' member' inputs inputs'
      hands hands'
    have firstDerived := tickPin_derives firstTraced
      (fun answer read => stored answer (List.mem_append_left _ read)) member
      hands
    have secondDerived := tickPin_derives secondTraced
      (fun answer read => stored answer (List.mem_append_right _ read)) member'
      hands'
    rw [firstDerived] at secondDerived
    exact Except.ok.inj secondDerived

end Hashes

/-- The end of the data is what these functions depend on. -/
@[reducible] def lastBytesHashes : HashFunctions where
  keccak256 bytes := firstWord (0 :: bytes.reverse)
  sha256 := firstWord

theorem shortSector_fits : 7 < 2 ^ 128 := by decide

def shortCall : SealCall where
  config := sampleConfig
  cid := sampleCid
  sector := 7
  replica := [1, 2]
  fits := shortSector_fits

def longCall : SealCall := { shortCall with replica := [0, 1, 2] }

/-- One more byte in the replica, and the data is different. -/
theorem sealInputs_longer_differs :
    ∃ shortInputs longInputs,
      @SealCall.inputs lastBytesHashes shortCall = .ok shortInputs ∧
        @SealCall.inputs lastBytesHashes longCall = .ok longInputs ∧
          shortInputs.data ≠ longInputs.data ∧
            shortInputs.data.get 0 ≠ shortInputs.data.get 1 := by
  have free : @CollisionFree lastBytesHashes
      (shortCall.preimages ++ longCall.preimages) := by
    decide +kernel
  have alone : @CollisionFree lastBytesHashes shortCall.preimages := by
    decide +kernel
  have bound := @sealInputs_bound_toContent lastBytesHashes
  refine ⟨_, _, rfl, rfl, ?_, ?_⟩
  · intro same
    have parts := ((bound.2.1 shortCall longCall _ _ rfl rfl).1 free).mp same
    exact absurd parts.2.2 (by decide)
  · exact (bound.2.2.1 shortCall _ rfl).1 alone 0 1 (by decide)

end NodeAgent.Pinning
