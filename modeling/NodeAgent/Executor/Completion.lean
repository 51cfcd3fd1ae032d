import NodeAgent.Chainio.JsonRpc
import NodeAgent.Executor.Runtime
import NodeAgent.Library.Utf8

/-!
# The completion exchange

`executor::runtime`: what the resident-server adapter posts for an input, and
what it makes of the answer.  Decoding is greedy under a fixed seed, and the
output is the text of the answer's `content` member.
-/

namespace NodeAgent.Executor

open Chainio Interaction Parsing

def llamaFixedSeed : Nat := 40204

/-- `String::from_utf8_lossy` of the input. -/
def prompt (input : Bytes) : String :=
  String.ofList (Utf8.readLossy input)

/-- The body of a request: greedy sampling, under the fixed seed. -/
def completionBody (input : Bytes) : Json :=
  .object
    [("prompt", .string (prompt input)),
      ("n_predict", .integer ⟨512, by decide⟩),
      ("temperature", .fraction "0.0"),
      ("seed", .integer ⟨llamaFixedSeed, by decide⟩)]

/-- What the adapter does: look for the weights, and post a body. -/
inductive HttpOp
  | fileExists (path : Path)
  | post (url : String) (body : Json)

abbrev HttpAnswer : HttpOp → Type
  | .fileExists _ => Bool
  | .post _ _ => Except String Response

section Crates

variable [WireCrates]

/-- What is made of the answer to a post. -/
def completed (maxResponseBytes : Nat) :
    Except String Response → Except String Bytes
  | .error error => .error error
  | .ok response =>
      if !response.isSuccess then
        .error s!"server status {statusText response.status}"
      else do
        let body ← (readBodyCapped response maxResponseBytes).result.mapError
          (CappedReadError.display statusText)
        let value ← fromSlice body
        let content ← okOr "response had no `content` field"
          ((value.get "content").bind Json.asStr)
        return Utf8.encode content.toList

/-- One completion, over HTTP. -/
def complete (maxResponseBytes : Nat) :
    (op : BackendOp) → Program HttpOp HttpAnswer (BackendAnswer op)
  | .fileExists path => Program.perform (HttpOp.fileExists path)
  | .completion url input => do
      let answer ← Program.perform (HttpOp.post url (completionBody input))
      return completed maxResponseBytes answer

/-- The resident server, over HTTP. -/
def LlamaServerInference.runHttp (server : LlamaServerInference)
    (maxResponseBytes : Nat) (model : ProvisionedModel) (input : Bytes) :
    Program HttpOp HttpAnswer (Except InferenceError Bytes) :=
  (server.run model input).interp (complete maxResponseBytes)

end Crates

theorem prompt_encode (text : String) :
    prompt (Utf8.encode text.toList) = text := by
  rw [prompt, Utf8.readLossy_encode, String.ofList_toList]

theorem encode_prompt {input : Bytes}
    (whole : Utf8.replacement ∉ (prompt input).toList) :
    Utf8.encode (prompt input).toList = input := by
  rw [prompt, String.toList_ofList] at whole ⊢
  exact Utf8.encode_readLossy whole

section Exchanges

variable [WireCrates] {World : Type} {evolves : World → World → Prop}
  {answers : World → (op : HttpOp) → HttpAnswer op → Prop}
  {start finish : World} {server : LlamaServerInference}
  {maxResponseBytes : Nat} {model : ProvisionedModel} {input : Bytes}

/-- The server does not hold another model, as far as the operator declared. -/
def LlamaServerInference.Serves (server : LlamaServerInference)
    (model : ProvisionedModel) : Prop :=
  ∀ resident, server.residentModelHash = some resident →
    resident = model.modelHash

/-- The whole adapter: a look for the weights, the declared model, and one
post. -/
theorem LlamaServerInference.runHttp_eq :
    server.runHttp maxResponseBytes model input =
      .call (HttpOp.fileExists model.path) fun found =>
        match found with
        | false => .done (.error .modelMissing)
        | true =>
            match server.residentModelHash.filter
                (fun expected => expected ≠ model.modelHash) with
            | some expected =>
                .done (.error (.modelMismatch expected model.modelHash))
            | none =>
                .call (HttpOp.post server.completionUrl
                    (completionBody input)) fun answer =>
                  .done ((completed maxResponseBytes answer).mapError
                    .backend) := by
  refine congrArg (Program.call _) (funext fun found => ?_)
  cases found with
  | false => rfl
  | true =>
      simp only
      cases server.residentModelHash.filter
          fun expected => expected ≠ model.modelHash with
      | some expected => rfl
      | none =>
          refine congrArg (Program.call _) (funext fun answer => ?_)
          simp only [Program.bind, Program.pure_eq]
          cases completed maxResponseBytes answer <;> rfl

/-- What is posted is the body of the input, to a server that may serve the
model, once the weights were seen. -/
theorem LlamaServerInference.runHttp_posts {url : String} {body : Json}
    (posted : IssuedAt evolves answers (.post url body) finish start
      (server.runHttp maxResponseBytes model input)) :
    url = server.completionUrl ∧ body = completionBody input ∧
      server.Serves model ∧
      ∃ seen, evolves start seen ∧ answers seen (.fileExists model.path) true ∧
        evolves seen finish := by
  rw [runHttp_eq] at posted
  cases posted with
  | @later _ seen _ _ found moved answered posted =>
  cases found with
  | false => cases posted
  | true =>
  simp only at posted
  split at posted
  · cases posted
  · next other =>
    cases posted with
    | later answer _ _ rest => cases rest
    | here after =>
        refine ⟨rfl, rfl, ?_, seen, moved, answered, after⟩
        intro resident declared
        rw [declared] at other
        simpa using other

/-- A whole answer whose `content` is the text of the output. -/
structure AnswersWith (response : Response) (output : Bytes) : Prop where
  success : response.isSuccess = true
  content : ∃ (chunks : List Chunk) (value : Json) (text : String),
    response.chunks = chunks.map .ok ∧
      fromSlice (chunks.map Subtype.val).flatten = .ok value ∧
      value.get "content" = some (.string text) ∧
      output = Utf8.encode text.toList

theorem completed_ok {answer : Except String Response} {output : Bytes}
    (ok : completed maxResponseBytes answer = .ok output) :
    ∃ response, answer = .ok response ∧ AnswersWith response output := by
  cases answer with
  | error error => cases ok
  | ok response =>
  rw [completed] at ok
  split at ok
  · cases ok
  · next success =>
    obtain ⟨body, read, ok⟩ := bind_eq_ok.mp ok
    obtain ⟨value, parsed, ok⟩ := bind_eq_ok.mp ok
    obtain ⟨text, found, same⟩ := bind_eq_ok.mp ok
    cases same
    obtain ⟨-, chunks, whole, rfl⟩ :=
      readBodyCapped_ok (mapError_eq_ok.mp read)
    obtain ⟨content, member, isText⟩ :=
      Option.bind_eq_some_iff.mp (okOr_eq_ok_iff.mp found)
    rw [Json.asStr_eq_some_iff.mp isText] at member
    exact ⟨response, rfl, by simpa using success, chunks, value, text, whole,
      parsed, member, rfl⟩

theorem LlamaServerInference.runHttp_answers {output : Bytes}
    (execution : Executes evolves answers start
      (server.runHttp maxResponseBytes model input) (.ok output) finish) :
    IssuedAt evolves answers
        (.post server.completionUrl (completionBody input)) finish start
        (server.runHttp maxResponseBytes model input) ∧
      ∃ response,
        answers finish (.post server.completionUrl (completionBody input))
          (.ok response) ∧ AnswersWith response output := by
  rw [runHttp_eq] at execution ⊢
  obtain ⟨seen, found, moved, present, rest⟩ := executes_call.mp execution
  cases found with
  | false => cases (executes_done.mp rest).1
  | true =>
  simp only at rest
  split at rest
  · cases (executes_done.mp rest).1
  · next other =>
    obtain ⟨posted, answer, after, answered, done⟩ := executes_call.mp rest
    obtain ⟨same, rfl⟩ := executes_done.mp done
    obtain ⟨response, rfl, content⟩ := completed_ok (mapError_eq_ok.mp same)
    refine ⟨.later true moved present ?_, response, answered, content⟩
    simp only
    exact .here after

end Exchanges

end NodeAgent.Executor
