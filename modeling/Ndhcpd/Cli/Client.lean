import Ndhcpd.Api.Router
import Ndhcpd.Proto.AddressText

/-!
# The client of the API

`ndhcp-cli` sends one request for each command and makes its output of the answer. An `Exchange` is
such a request together with what is made of the answer; `ApiClient.get`, `post`, `patch` and
`delete` build them. The connection may fail before there is an answer, or while its body is read,
so `HttpReply` is what there is of an answer; a command that is `Careful` takes none for a success
that is not there. The client writes paths as texts, which the server reads as segments and a query
string; it writes identifiers in decimal, which `parseI64` reads back (`parseI64_toString`).

How the bodies of answers are read is a parameter, as how bodies of requests are read is one of the
server: `JsonReader` reads each document as the value it was written for.
-/

namespace Ndhcpd

/-! ### Exchanges -/

/-- Why a command fails: an argument is no address, the connection fails, the server has answered
with an error, the resource exists, the body of the answer is not what is expected, or as a text
says. -/
inductive CliError
  | addrParse
  | transport
  | status (status : ℕ) (body : ResponseBody)
  | alreadyExists
  | unreadable
  | text (s : String)
deriving DecidableEq, Repr

/-- Read the body of an answer as JSON. -/
structure JsonReader where
  unit : ResponseBody → Option Unit
  id : ResponseBody → Option ℤ
  subnet : ResponseBody → Option Subnet
  subnets : ResponseBody → Option (List Subnet)
  ranges : ResponseBody → Option (List DynamicRange)
  staticIps : ResponseBody → Option (List StaticIP)
  leases : ResponseBody → Option (List Lease)
  iaPrefix : ResponseBody → Option IAPrefix
  iaPrefixes : ResponseBody → Option (List IAPrefix)
  unit_null : unit .null = some ()
  id_id : ∀ n, id (.id n) = some n
  subnet_subnet : ∀ s, subnet (.subnet s) = some s
  subnets_subnets : ∀ l, subnets (.subnets l) = some l
  ranges_ranges : ∀ l, ranges (.ranges l) = some l
  staticIps_staticIps : ∀ l, staticIps (.staticIps l) = some l
  leases_leases : ∀ l, leases (.leases l) = some l
  iaPrefix_iaPrefix : ∀ p, iaPrefix (.iaPrefix p) = some p
  iaPrefixes_iaPrefixes : ∀ l, iaPrefixes (.iaPrefixes l) = some l

/-- What reaches the client of an answer: nothing, the status without the body, or all of it. -/
inductive HttpReply
  | nothing
  | head (status : ℕ)
  | whole (response : Response)
deriving DecidableEq, Repr

/-- A request, and what is made of what is received. -/
structure Exchange (α : Type) where
  method : HttpMethod
  path : String
  body : RequestBody
  finish : HttpReply → Except CliError α

namespace Exchange

variable {α β : Type}

/-- Make something else of the result. -/
def map (f : α → β) (ex : Exchange α) : Exchange β :=
  { ex with finish := fun received => (ex.finish received).map f }

/-- Make something else of the error. -/
def mapErr (f : CliError → CliError) (ex : Exchange α) : Exchange α :=
  { ex with finish := fun received => (ex.finish received).mapError f }

/-- What is made of an answer that is received as a whole. -/
abbrev answered (ex : Exchange α) (response : Response) : Except CliError α :=
  ex.finish (.whole response)

end Exchange

/-- Another text for `AlreadyExistsError`. -/
def CliError.explain (text : String) : CliError → CliError
  | .alreadyExists => .text text
  | e => e

instance (response : Response) : Decidable response.Succeeded :=
  inferInstanceAs (Decidable (200 ≤ response.status ∧ response.status < 300))

namespace ApiClient

variable {α : Type}

/-- An empty request body. -/
def noBody : RequestBody := .other none []

/-- `client.request(req).await?`: the status and, if it gets through, the body. -/
def request : HttpReply → Except CliError (ℕ × Option ResponseBody)
  | .nothing => .error .transport
  | .head status => .ok (status, none)
  | .whole response => .ok (response.status, some response.body)

/-- `into_body().collect().await?`. -/
def collect : Option ResponseBody → Except CliError ResponseBody
  | none => .error .transport
  | some body => .ok body

/-- What was read, if anything could be. -/
def readBody (read : ResponseBody → Option α) (body : ResponseBody) : Except CliError α :=
  match read body with
  | some a => .ok a
  | none => .error .unreadable

/-- An empty answer is read as `null`. -/
def orNull (body : ResponseBody) : ResponseBody := if body = .empty then .null else body

/-- A `GET` request; its success is 200. -/
def get (read : ResponseBody → Option α) (path : String) : Exchange α where
  method := .get
  path := path
  body := noBody
  finish received := do
    let (status, incoming) ← request received
    let body ← collect incoming
    if status ≠ 200 then .error (.status status body) else readBody read body

/-- A `POST` request. An answer of 409 is an error of its own. -/
def post (read : ResponseBody → Option α) (path : String) (doc : RequestDocument) : Exchange α where
  method := .post
  path := path
  body := .json doc
  finish received := do
    let (status, incoming) ← request received
    let body ← collect incoming
    if status = 409 then .error .alreadyExists
    else if ¬ (200 ≤ status ∧ status < 300) then .error (.status status body)
    else readBody read (orNull body)

/-- A `PATCH` request. -/
def patch (read : ResponseBody → Option α) (path : String) (doc : RequestDocument) :
    Exchange α where
  method := .patch
  path := path
  body := .json doc
  finish received := do
    let (status, incoming) ← request received
    let body ← collect incoming
    if ¬ (200 ≤ status ∧ status < 300) then .error (.status status body)
    else readBody read (orNull body)

/-- A `DELETE` request. The body of a success is not looked at. -/
def delete (path : String) : Exchange Unit where
  method := .delete
  path := path
  body := noBody
  finish received := do
    let (status, incoming) ← request received
    if ¬ (200 ≤ status ∧ status < 300) then
      let body ← collect incoming
      .error (.status status body)
    else .ok ()

end ApiClient

/-! ### Errors of the server are errors of the command -/

/-- An answer that is no success makes the command fail. -/
def Exchange.Rejects {α : Type} (ex : Exchange α) : Prop :=
  ∀ response : Response, ¬ response.Succeeded → ∃ e, ex.answered response = .error e

/-- Where something of the answer is missing, the command fails because of that, unless the status
is all it looks at. -/
structure Exchange.Careful {α : Type} (ex : Exchange α) : Prop where
  nothing : ex.finish .nothing = .error .transport
  head : ∀ status, ex.finish (.head status) = .error .transport ∨
    ∀ body, ex.finish (.head status) = ex.answered ⟨status, body⟩

section Errors

variable {α β : Type} {read : ResponseBody → Option α} {path : String} {doc : RequestDocument}

theorem Exchange.Rejects.map {ex : Exchange α} (h : ex.Rejects) (f : α → β) :
    (ex.map f).Rejects := by
  intro response hresponse
  obtain ⟨e, he⟩ := h response hresponse
  exact ⟨e, congrArg (Except.map f) he⟩

theorem Exchange.Rejects.mapErr {ex : Exchange α} (h : ex.Rejects) (f : CliError → CliError) :
    (ex.mapErr f).Rejects := by
  intro response hresponse
  obtain ⟨e, he⟩ := h response hresponse
  exact ⟨f e, congrArg (Except.mapError f) he⟩

theorem ApiClient.get_rejects : (ApiClient.get read path).Rejects := by
  intro response hresponse
  have hstatus : response.status ≠ 200 := fun heq => hresponse ⟨by omega, by omega⟩
  exact ⟨_, if_pos hstatus⟩

theorem ApiClient.post_rejects : (ApiClient.post read path doc).Rejects := by
  intro response hresponse
  by_cases hconflict : response.status = 409
  · exact ⟨_, if_pos hconflict⟩
  · exact ⟨_, (if_neg hconflict).trans (if_pos hresponse)⟩

theorem ApiClient.patch_rejects : (ApiClient.patch read path doc).Rejects :=
  fun _ hresponse => ⟨_, if_pos hresponse⟩

theorem ApiClient.delete_rejects : (ApiClient.delete path).Rejects :=
  fun _ hresponse => ⟨_, if_pos hresponse⟩

theorem Exchange.Careful.map {ex : Exchange α} (h : ex.Careful) (f : α → β) :
    (ex.map f).Careful where
  nothing := congrArg (Except.map f) h.nothing
  head status := by
    rcases h.head status with hlost | hsame
    · exact .inl (congrArg (Except.map f) hlost)
    · exact .inr fun body => congrArg (Except.map f) (hsame body)

/-- Explaining a conflict does not hide a failure of the connection. -/
theorem Exchange.Careful.explain {ex : Exchange α} (h : ex.Careful) (text : String) :
    (ex.mapErr (.explain text)).Careful where
  nothing := congrArg (Except.mapError _) h.nothing
  head status := by
    rcases h.head status with hlost | hsame
    · exact .inl (congrArg (Except.mapError _) hlost)
    · exact .inr fun body => congrArg (Except.mapError _) (hsame body)

theorem ApiClient.get_careful : (ApiClient.get read path).Careful := ⟨rfl, fun _ => .inl rfl⟩

theorem ApiClient.post_careful : (ApiClient.post read path doc).Careful :=
  ⟨rfl, fun _ => .inl rfl⟩

theorem ApiClient.patch_careful : (ApiClient.patch read path doc).Careful :=
  ⟨rfl, fun _ => .inl rfl⟩

theorem ApiClient.delete_careful : (ApiClient.delete path).Careful where
  nothing := rfl
  head status := by
    by_cases hsuccess : 200 ≤ status ∧ status < 300
    · have hok : ∀ incoming : Option ResponseBody, (if ¬ (200 ≤ status ∧ status < 300) then
          (do let body ← collect incoming; .error (.status status body)) else .ok () :
            Except CliError Unit) = .ok () := fun _ => if_neg (not_not_intro hsuccess)
      exact .inr fun body => (hok none).trans (hok (some body)).symm
    · exact .inl (if_pos hsuccess)

end Errors

/-! ### Paths -/

/-- The characters that stand for themselves in a segment of a path and in a value of a query. -/
def isUnreserved (c : Char) : Bool := c.isAlphanum || c == '-' || c == '.' || c == '_' || c == '~'

/-- A text that is written into a path or a query as it is. -/
def PlainText (s : String) : Prop := s ≠ "" ∧ s.toList.all isUnreserved = true

instance (s : String) : Decidable (PlainText s) :=
  inferInstanceAs (Decidable (s ≠ "" ∧ s.toList.all isUnreserved = true))

/-- A path of segments. -/
def joinPath (segments : List String) : String := String.join (segments.map ("/" ++ ·))

/-- How the server reads the target of a request: the segments of the path and the query. Plain
texts are read as they were written. -/
structure ReadsTargets (target : String → Option (List String × String)) : Prop where
  path : ∀ segments, segments ≠ [] → (∀ s ∈ segments, PlainText s) →
    target (joinPath segments) = some (segments, "")
  query : ∀ segments name value, segments ≠ [] → (∀ s ∈ segments, PlainText s) →
    PlainText name → PlainText value →
    target (joinPath segments ++ "?" ++ name ++ "=" ++ value) =
      some (segments, name ++ "=" ++ value)

/-- The request that comes in is the one of the exchange. The client sends no `Authorization`
header. -/
structure Exchange.Arrives {α : Type} (target : String → Option (List String × String))
    (ex : Exchange α) (req : ApiRequest) : Prop where
  authorization : req.http.authorization = none
  method : req.method = ex.method
  target : target ex.path = some (req.path, req.query)
  body : req.body = ex.body

/-- The extractors read what the client writes. -/
structure Extractors.ReadsClient (extract : Extractors) : Prop where
  subnet : ∀ s, extract.subnet (.json (.subnet s)) = .ok s
  range : ∀ r, extract.range (.json (.range r)) = .ok r
  staticIp : ∀ s, extract.staticIp (.json (.staticIp s)) = .ok s
  hostname : ∀ h, extract.hostname (.json (.hostname h)) = .ok h
  iaPrefix : ∀ p, extract.iaPrefix (.json (.iaPrefix p)) = .ok p
  subnetId_none : extract.subnetId "" = .ok none
  subnetId_some : ∀ id : Int64,
    extract.subnetId ("subnet_id" ++ "=" ++ toString id.toInt) = .ok (some id.toInt)
  interface_none : extract.interface "" = .ok none
  interface_some : ∀ name, PlainText name →
    extract.interface ("interface" ++ "=" ++ name) = .ok (some name)

/-! ### Identifiers -/

/-- The decimal digits of a number. -/
private theorem digits_repr (n : ℕ) :
    n.repr.toList ≠ [] ∧ (n.repr.toList.all Char.isDigit) = true ∧
      n.repr.toList.foldl (fun n c => 10 * n + (c.toNat - '0'.toNat)) 0 = n := by
  rw [Nat.toList_repr]
  refine ⟨Nat.toDigits_ne_nil, ?_, ?_⟩
  · exact List.all_eq_true.mpr fun c hc => Nat.isDigit_of_mem_toDigits (by omega) (by omega) hc
  · exact Nat.ofDigitChars_toDigits (by omega) (by omega)

/-- **Identifiers are read back.** -/
theorem parseI64_toString (id : Int64) : parseI64 (toString id.toInt) = some id.toInt := by
  have hrange : -2 ^ 63 ≤ id.toInt ∧ id.toInt < 2 ^ 63 := ⟨id.le_toInt, id.toInt_lt⟩
  generalize id.toInt = n at hrange ⊢
  cases n with
  | ofNat m =>
    obtain ⟨hne, hall, hvalue⟩ := digits_repr m
    have htext : (toString (Int.ofNat m)).toList = m.repr.toList := rfl
    rw [parseI64, htext]
    generalize m.repr.toList = ds at hne hall hvalue ⊢
    simp only
    split
    · exact absurd (List.all_cons.symm.trans hall) (by simp)
    · exact absurd (List.all_cons.symm.trans hall) (by simp)
    · rw [if_neg (by simp [hne, hall]), hvalue]
      exact Option.filter_some_pos (decide_eq_true hrange)
  | negSucc m =>
    obtain ⟨hne, hall, hvalue⟩ := digits_repr (m + 1)
    have htext : (toString (Int.negSucc m)).toList = '-' :: (m + 1).repr.toList := by
      rw [Int.toString_eq_repr, Int.repr_eq_if]
      simp
    rw [parseI64, htext]
    generalize (m + 1).repr.toList = ds at hne hall hvalue ⊢
    simp only
    rw [if_neg (by simp [hne, hall]), hvalue]
    exact Option.filter_some_pos (decide_eq_true hrange)

/-- An identifier is written into a path as it is. -/
theorem plainText_toString (id : Int64) : PlainText (toString id.toInt) := by
  have hdigits : ∀ n : ℕ, n.repr.toList.all isUnreserved = true := by
    intro n
    refine List.all_eq_true.mpr fun c hc => ?_
    have hdigit : c.isDigit = true := List.all_eq_true.mp (digits_repr n).2.1 c hc
    simp [isUnreserved, Char.isAlphanum, hdigit]
  rw [Int.toString_eq_repr, Int.repr_eq_if]
  split
  · exact ⟨Nat.repr_ne_empty, hdigits _⟩
  · refine ⟨fun hempty => Nat.repr_ne_empty (String.append_eq_empty_iff.mp hempty).2, ?_⟩
    rw [String.toList_append, List.all_append, hdigits, Bool.and_true]
    rfl

end Ndhcpd
