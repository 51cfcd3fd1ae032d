import NodeAgent.Library.FixedWidth
import NodeAgent.Library.Interaction

/-!
# The chain's block time

`chainio::rpc`: the average time of a block, from the timestamps of the latest
block and of an earlier one.  A quantity of the chain is parsed into 64 bits.
-/

namespace NodeAgent.Chainio

open Interaction

variable {Error : Type}

/-- The reads of the client that the block time is derived from. -/
inductive ChainRead
  | ethBlockNumber
  | ethBlockTimestamp (block : Nat)

/-- Every read ends in an error or in a parsed quantity. -/
abbrev ChainAnswer (Error : Type) (_ : ChainRead) : Type :=
  Except Error UInt64

/-- Integer division; `none` is the panic on a zero divisor. -/
def divide (dividend divisor : Nat) : Option Nat :=
  if divisor = 0 then none else some (dividend / divisor)

/-- The seconds of an average block among the latest `sample`; `none` is a
panic, and `.ok none` leaves the caller with its default. -/
def secsPerBlock (sample : Nat) :
    Program ChainRead (ChainAnswer Error)
      (Option (Except Error (Option Nat))) :=
  if sample = 0 then pure (some (.ok none))
  else do
    match ← Program.perform .ethBlockNumber with
    | .error error => pure (some (.error error))
    | .ok head =>
        if head.toNat < sample then pure (some (.ok none))
        else
          match ← Program.perform (.ethBlockTimestamp head.toNat) with
          | .error error => pure (some (.error error))
          | .ok tHead =>
              match ← Program.perform
                  (.ethBlockTimestamp (head.toNat - sample)) with
              | .error error => pure (some (.error error))
              | .ok tPrev =>
                  if tHead.toNat ≤ tPrev.toNat then pure (some (.ok none))
                  else
                    match divide (tHead.toNat - tPrev.toNat)
                        (FixedWidth.narrow 64 sample) with
                    | none => pure none
                    | some average =>
                        pure (some (.ok (some (max average 1))))

/-- What the client derives from these answers. -/
def secsPerBlockOn (answers : (read : ChainRead) → ChainAnswer Error read)
    (sample : Nat) : Option (Except Error (Option Nat)) :=
  ((secsPerBlock sample).runOn (fun _ read => (answers read, ())) ()).1

/-- The chain has enough blocks, and its timestamps advance. -/
structure Sampled (answers : (read : ChainRead) → ChainAnswer Error read)
    (sample : Nat) (head tHead tPrev : UInt64) : Prop where
  positive : 0 < sample
  enough : sample ≤ head.toNat
  latest : answers .ethBlockNumber = .ok head
  newer : answers (.ethBlockTimestamp head.toNat) = .ok tHead
  older : answers (.ethBlockTimestamp (head.toNat - sample)) = .ok tPrev
  advances : tPrev.toNat < tHead.toNat

theorem divide_narrow {dividend sample : Nat} {head : UInt64}
    (positive : 0 < sample) (enough : sample ≤ head.toNat) :
    divide dividend (FixedWidth.narrow 64 sample) =
      some (dividend / sample) := by
  have fits : sample < 2 ^ 64 := lt_of_le_of_lt enough head.toNat_lt
  rw [FixedWidth.narrow_of_fits fits, divide, if_neg positive.ne']

/-- The division is never by zero. -/
theorem secsPerBlock_defined (sample : Nat) :
    (secsPerBlock sample : Program ChainRead (ChainAnswer Error) _).Ensures
      (· ≠ none) := by
  rw [secsPerBlock]
  split
  · exact Program.ensures_done (Option.some_ne_none _)
  rename_i sampling
  simp only [Program.perform_bind]
  apply Program.ensures_call
  intro latest
  cases latest with
  | error error => exact Program.ensures_done (Option.some_ne_none _)
  | ok head =>
      dsimp only
      split
      · exact Program.ensures_done (Option.some_ne_none _)
      rename_i enough
      apply Program.ensures_call
      intro newer
      cases newer with
      | error error => exact Program.ensures_done (Option.some_ne_none _)
      | ok tHead =>
          apply Program.ensures_call
          intro older
          cases older with
          | error error => exact Program.ensures_done (Option.some_ne_none _)
          | ok tPrev =>
              dsimp only
              split
              · exact Program.ensures_done (Option.some_ne_none _)
              · rw [divide_narrow (Nat.pos_of_ne_zero sampling)
                  (not_lt.mp enough)]
                exact Program.ensures_done (Option.some_ne_none _)

theorem Sampled.secsPerBlockOn
    {answers : (read : ChainRead) → ChainAnswer Error read} {sample : Nat}
    {head tHead tPrev : UInt64}
    (sampled : Sampled answers sample head tHead tPrev) :
    secsPerBlockOn answers sample =
      some (.ok (some
        (max ((tHead.toNat - tPrev.toNat) / sample) 1))) := by
  obtain ⟨positive, enough, latest, newer, older, advances⟩ := sampled
  simp only [Chainio.secsPerBlockOn, secsPerBlock, if_neg positive.ne',
    Program.perform_bind, Program.runOn_call, latest,
    if_neg (not_lt.mpr enough), newer, older, if_neg (not_le.mpr advances),
    divide_narrow positive enough, Program.pure_eq, Program.runOn_done]

end NodeAgent.Chainio
