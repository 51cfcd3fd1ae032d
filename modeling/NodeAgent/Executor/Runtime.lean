import NodeAgent.Executor.Models

/-!
# The inference adapter

`executor::runtime`: the resident llama-server adapter checks that the verified
weights exist and that the server was declared to hold this model, and only
then asks for a completion.
-/

namespace NodeAgent.Executor

open Chainio Interaction

inductive InferenceError
  | backend (message : String)
  | modelMissing
  | modelMismatch (expected got : Word)
deriving DecidableEq

def InferenceError.display : InferenceError → String
  | .backend message => s!"inference backend error: {message}"
  | .modelMissing => "provisioned model file is missing"
  | .modelMismatch expected got =>
      s!"resident-model mismatch: backend serves {hex32 expected} but job provisioned {hex32 got}"

/-- What the adapter asks of the outside: whether a file exists, and one
completion over HTTP (with the status and the body already checked). -/
inductive BackendOp
  | fileExists (path : Path)
  | completion (url : String) (input : Bytes)
deriving DecidableEq

abbrev BackendAnswer : BackendOp → Type
  | .fileExists _ => Bool
  | .completion _ _ => Except String Bytes

structure LlamaServerInference where
  baseUrl : String
  residentModelHash : Option Word

namespace LlamaServerInference

/-- `{base_url}/completion`, without doubled slashes. -/
def completionUrl (server : LlamaServerInference) : String :=
  String.ofList
      (server.baseUrl.toList.reverse.dropWhile (fun char => char = '/')).reverse
    ++ "/completion"

/-- `Inference::run`. -/
def run (server : LlamaServerInference) (model : ProvisionedModel)
    (input : Bytes) :
    Program BackendOp BackendAnswer (Except InferenceError Bytes) := do
  match ← Program.perform (BackendOp.fileExists model.path) with
  | false => return .error .modelMissing
  | true =>
      match server.residentModelHash.filter
          (fun expected => expected ≠ model.modelHash) with
      | some expected =>
          return .error (.modelMismatch expected model.modelHash)
      | none =>
          match ← Program.perform
              (BackendOp.completion server.completionUrl input) with
          | .error message => return .error (.backend message)
          | .ok output => return .ok output

/-- The mismatch refusal depends on the declared and the provisioned hash
alone. -/
theorem run_mismatch_iff (server : LlamaServerInference)
    (model : ProvisionedModel) (input : Bytes) (expected got : Word) :
    (server.run model input).Returns (.error (.modelMismatch expected got)) ↔
      server.residentModelHash = some expected ∧ expected ≠ model.modelHash ∧
        got = model.modelHash := by
  have refused : (server.residentModelHash.filter
      fun expected => expected ≠ model.modelHash) = some expected ↔
        server.residentModelHash = some expected ∧
          expected ≠ model.modelHash := by
    simp
  rw [run, Program.perform_bind, Program.returns_call, ← and_assoc, ← refused]
  cases server.residentModelHash.filter
      fun expected => expected ≠ model.modelHash with
  | none =>
      constructor
      · intro returns
        obtain ⟨found, returned⟩ := returns
        cases found with
        | false => cases returned
        | true =>
            obtain ⟨completed, returned⟩ := returned
            cases completed <;> cases returned
      · rintro ⟨none, -⟩
        cases none
  | some resident =>
      constructor
      · intro returns
        obtain ⟨found, returned⟩ := returns
        cases found with
        | false => cases returned
        | true =>
            cases returned
            exact ⟨rfl, rfl⟩
      · intro mismatch
        obtain ⟨same, rfl⟩ := mismatch
        cases same
        exact ⟨true, rfl⟩

end LlamaServerInference

end NodeAgent.Executor
