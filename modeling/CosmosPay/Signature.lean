import CosmosPay.Attempts
import Mathlib

/-!
# Signatures of deliveries

An integrator splits the signature header at its separators and computes the digest again.
The digits of the timestamp and of the digest contain no separator, and the timestamp ends
at the first dot of the signed message, so header and message are both read back uniquely.
-/

namespace Text

/-- `text.split(separator)` -/
def split (separator : Char) (text : String) : List String :=
  (text.toList.splitOn separator).map String.ofList

section Split

variable {separator : Char} {text : String}

theorem beq_separator (absent : separator ∉ text.toList) :
    ∀ char ∈ text.toList, (char == separator) = false := by
  intro char member
  rw [beq_eq_false_iff_ne]
  rintro rfl
  exact absent member

/-- A text without the separator is the only part of itself. -/
theorem split_of_not_mem (absent : separator ∉ text.toList) : split separator text = [text] := by
  rw [split, List.splitOn_eq_splitOnP, List.splitOnP_eq_singleton (beq_separator absent),
    List.map_singleton, String.ofList_toList]

/-- The first part ends at the first separator. -/
theorem split_append {mark : String} (isMark : mark.toList = [separator])
    (absent : separator ∉ text.toList) (others : String) :
    split separator (text ++ mark ++ others) = text :: split separator others := by
  have chars : (text ++ mark ++ others).toList = text.toList ++ separator :: others.toList := by
    simp [isMark]
  rw [split, chars, List.splitOn_eq_splitOnP,
    List.splitOnP_append_cons_of_forall_mem (beq_separator absent) separator
      (beq_self_eq_true separator),
    List.map_cons, String.ofList_toList, ← List.splitOn_eq_splitOnP]
  rfl

end Split

end Text

namespace CosmosPay

open Awaiting WebhookDispatcher

/-! ## The integrator's side -/

/-- Timestamp and digest of a header; a part that is not there is `undefined`. -/
def parseHeader (header : String) : Option String × Option String :=
  let parts := (Text.split ',' header).map fun part => (Text.split '=' part)[1]?
  (parts[0]?.join, parts[1]?.join)

/-- Buffers of different lengths are refused with an exception. -/
def timingSafeEqual (first second : ByteArray) : Option Bool :=
  if first.size = second.size then some (first = second) else none

/-- `verify` of the integrator; `none` stands for an exception. -/
def verify (deployment : Deployment) (rawBody header secret : String) : Option Bool :=
  let (timestamp, digest) := parseHeader header
  let expected := deployment.libraries.hmacSha256 secret
    (timestamp.getD "undefined" ++ "." ++ rawBody)
  digest.bind fun digest => timingSafeEqual expected.toUTF8 digest.toUTF8

/-- The hash is printed in lowercase hexadecimal digits. -/
def Hexadecimal (libraries : Libraries) : Prop :=
  ∀ secret message, ∀ char ∈ (libraries.hmacSha256 secret message).toList,
    char ∈ "0123456789abcdef".toList

/-- What `signPayload` signs for body and timestamp, whatever the hash. -/
def Signs (body : String) (timestamp : Nat) (message : String) : Prop :=
  ∀ deployment secret,
    signPayload deployment secret body timestamp = deployment.libraries.hmacSha256 secret message

section Headers

variable {deployment : Deployment}

theorem not_mem_repr {separator : Char} (number : Nat) (other : separator.isDigit = false) :
    separator ∉ number.repr.toList := by
  intro member
  rw [(Text.isNumeral_repr number).2 separator member] at other
  cases other

theorem not_mem_signPayload (hexadecimal : Hexadecimal deployment.libraries) {separator : Char}
    (other : separator ∉ "0123456789abcdef".toList) (secret body : String) (timestamp : Nat) :
    separator ∉ (signPayload deployment secret body timestamp).toList :=
  fun member => other (hexadecimal secret _ separator member)

theorem parseHeader_buildSignatureHeader (hexadecimal : Hexadecimal deployment.libraries)
    (secret body : String) (timestamp : Nat) :
    parseHeader (buildSignatureHeader deployment secret body timestamp) =
      (some timestamp.repr, some (signPayload deployment secret body timestamp)) := by
  have stamped : Text.split '=' ("t=" ++ timestamp.repr) = ["t", timestamp.repr] := by
    have part : "t=" ++ timestamp.repr = "t" ++ "=" ++ timestamp.repr := rfl
    rw [part, Text.split_append rfl (by decide),
      Text.split_of_not_mem (not_mem_repr timestamp (by decide))]
  have signed : Text.split '=' ("v1=" ++ signPayload deployment secret body timestamp) =
      ["v1", signPayload deployment secret body timestamp] := by
    have part : "v1=" ++ signPayload deployment secret body timestamp =
        "v1" ++ "=" ++ signPayload deployment secret body timestamp := rfl
    rw [part, Text.split_append rfl (by decide),
      Text.split_of_not_mem (not_mem_signPayload hexadecimal (by decide) secret body timestamp)]
  have parts : Text.split ',' (buildSignatureHeader deployment secret body timestamp) =
      ["t=" ++ timestamp.repr, "v1=" ++ signPayload deployment secret body timestamp] := by
    have header : buildSignatureHeader deployment secret body timestamp =
        ("t=" ++ timestamp.repr) ++ "," ++
          ("v1=" ++ signPayload deployment secret body timestamp) := by
      have mark : ",v1=" = "," ++ "v1=" := rfl
      rw [buildSignatureHeader, mark]
      simp only [String.append_assoc]
    have first : ',' ∉ ("t=" ++ timestamp.repr).toList := by
      rw [String.toList_append, List.mem_append, not_or]
      exact ⟨by decide, not_mem_repr timestamp (by decide)⟩
    have second : ',' ∉ ("v1=" ++ signPayload deployment secret body timestamp).toList := by
      rw [String.toList_append, List.mem_append, not_or]
      exact ⟨by decide, not_mem_signPayload hexadecimal (by decide) secret body timestamp⟩
    rw [header, Text.split_append rfl first, Text.split_of_not_mem second]
  rw [parseHeader, parts]
  simp only [List.map_cons, List.map_nil, stamped, signed]
  rfl

/-- The integrator accepts every header that was built for the body. -/
theorem verify_buildSignatureHeader (hexadecimal : Hexadecimal deployment.libraries)
    (secret body : String) (timestamp : Nat) :
    verify deployment body (buildSignatureHeader deployment secret body timestamp) secret =
      some true := by
  rw [verify, parseHeader_buildSignatureHeader hexadecimal]
  simp [timingSafeEqual, signPayload]

/-- The first dot of a message ends the timestamp. -/
theorem message_inj {timestamp timestamp' : Nat} {body body' : String}
    (same : timestamp.repr ++ "." ++ body = timestamp'.repr ++ "." ++ body') :
    timestamp = timestamp' ∧ body = body' := by
  have parts := congrArg (Text.split '.') same
  rw [Text.split_append rfl (not_mem_repr timestamp (by decide)),
    Text.split_append rfl (not_mem_repr timestamp' (by decide))] at parts
  have stamps := congrArg Text.numeralValue (List.cons.inj parts).1
  rw [Text.numeralValue_repr, Text.numeralValue_repr] at stamps
  subst stamps
  have chars := congrArg String.toList same
  simp only [String.toList_append, List.append_assoc, List.append_cancel_left_eq] at chars
  exact ⟨rfl, String.toList_inj.mp chars⟩

/-- The header of every POST of a delivery verifies with the body that is sent with it. -/
theorem delivered_verifies (hexadecimal : Hexadecimal deployment.libraries)
    {allows : Config (service deployment) → Label (service deployment) → Prop}
    {config : Config (service deployment)} {state : World}
    (run : Run allows (Config.initial state) config) {index : Nat} {post : WebhookPost}
    {answer : signature.Result (.post post)} (posted : ⟨.post post, answer⟩ ∈ config.past index)
    (isDelivery : post.delivery ≠ none) :
    ∃ endpoint : WebhookEndpoint, post.url = endpoint.url ∧
      verify deployment post.body post.signature endpoint.secret = some true := by
  obtain ⟨newer, older, split⟩ := List.append_of_mem posted
  obtain ⟨request, -, permitted⟩ := run.permitted_past deliveries_fulfilled split
  rcases permitted with isPing | sends
  · exact absurd isPing isDelivery
  · obtain ⟨endpoint, delivery, timestamp, -, -, rfl⟩ := sends.signed
    exact ⟨endpoint, rfl, verify_buildSignatureHeader hexadecimal endpoint.secret _ timestamp⟩

/-- Every header verifies and is read back as its timestamp and digest, and a message is signed
for one timestamp and body only. -/
theorem signatures_verify (hexadecimal : Hexadecimal deployment.libraries) :
    (∀ secret body timestamp,
      verify deployment body (buildSignatureHeader deployment secret body timestamp) secret =
          some true ∧
        parseHeader (buildSignatureHeader deployment secret body timestamp) =
          (some timestamp.repr, some (signPayload deployment secret body timestamp)) ∧
        Text.numeralValue timestamp.repr = timestamp) ∧
      ∀ timestamp timestamp' body body' message, Signs body timestamp message →
        Signs body' timestamp' message → timestamp = timestamp' ∧ body = body' := by
  constructor
  · intro secret body timestamp
    exact ⟨verify_buildSignatureHeader hexadecimal secret body timestamp,
      parseHeader_buildSignatureHeader hexadecimal secret body timestamp,
      Text.numeralValue_repr timestamp⟩
  · intro timestamp timestamp' body body' message signs signs'
    -- the hash of the sample deployment puts the secret before the message
    have signed : "" ++ (timestamp.repr ++ "." ++ body) = "" ++ message :=
      signs Sample.deployment ""
    have signed' : "" ++ (timestamp'.repr ++ "." ++ body') = "" ++ message :=
      signs' Sample.deployment ""
    rw [String.empty_append, String.empty_append] at signed signed'
    exact message_inj (signed.trans signed'.symm)

theorem mem_of_mem_hex {bytes : List UInt8} {char : Char} (member : char ∈ (hex bytes).toList) :
    char ∈ "0123456789abcdef".toList := by
  have digits : ∀ value < 16, Nat.digitChar value ∈ "0123456789abcdef".toList := by decide
  rw [hex, String.toList_ofList] at member
  obtain ⟨byte, -, printed⟩ := List.mem_flatMap.mp member
  have small := byte.toNat_lt
  simp only [List.mem_cons, List.not_mem_nil, or_false] at printed
  rcases printed with rfl | rfl
  · exact digits _ (by omega)
  · exact digits _ (by omega)

/-- The digits of the message itself in the place of its hash. -/
def Sample.hexDeployment : Deployment :=
  { Sample.deployment with
    libraries := { Sample.deployment.libraries with
      hmacSha256 := fun _ message => hex message.toUTF8.toList } }

theorem signatures_verify_of_hexadecimal :
    (∀ secret body timestamp,
      verify Sample.hexDeployment body
          (buildSignatureHeader Sample.hexDeployment secret body timestamp) secret = some true ∧
        parseHeader (buildSignatureHeader Sample.hexDeployment secret body timestamp) =
          (some timestamp.repr, some (signPayload Sample.hexDeployment secret body timestamp)) ∧
        Text.numeralValue timestamp.repr = timestamp) ∧
      ∀ timestamp timestamp' body body' message, Signs body timestamp message →
        Signs body' timestamp' message → timestamp = timestamp' ∧ body = body' := by
  exact signatures_verify fun secret message char member => mem_of_mem_hex member

end Headers

end CosmosPay
