import ContentStore.Client
import ContentStore.Proofs.Text.Decimal
import ContentStore.Proofs.Text.Symbols

/-!
Contract: the headers of the requests of a client.

Owns:
- what values of headers may hold, text by text;
- that dates and base-64 spellings are such values, whatever they are of;
- that a call can be sent if the access key and the host are such values, and
  `Client.CanSend`, by which a client makes such calls.

Does not own: where the requests go.
-/

namespace ContentStore

/-! ## Values of headers -/

namespace Http.Header

def isValueSymbol (symbol : Char) : Bool :=
  symbol == '\t' || (0x20 ≤ symbol.toNat && symbol.toNat != 0x7f)

/-- Whether a value may hold all of some characters. -/
def AreValue (symbols : List Char) : Prop :=
  ∀ symbol ∈ symbols, isValueSymbol symbol = true

instance (symbols : List Char) : Decidable (AreValue symbols) :=
  inferInstanceAs (Decidable (∀ symbol ∈ symbols, isValueSymbol symbol = true))

theorem isValue_iff (text : String) : isValue text = true ↔ AreValue text.toList :=
  List.all_eq_true

variable {front back symbols : List Char} {text : String}

private theorem AreValue.append (areFront : AreValue front) (areBack : AreValue back) :
    AreValue (front ++ back) := by
  intro symbol member
  rcases List.mem_append.mp member with inFront | inBack
  · exact areFront symbol inFront
  · exact areBack symbol inBack

private theorem AreValue.cons {symbol : Char} (isFirst : isValueSymbol symbol = true)
    (areRest : AreValue symbols) : AreValue (symbol :: symbols) := by
  intro other member
  rcases List.mem_cons.mp member with rfl | later
  · exact isFirst
  · exact areRest other later

private theorem AreValue.take (areValue : AreValue symbols) (count : Nat) :
    AreValue (symbols.take count) :=
  fun symbol member => areValue symbol (List.mem_of_mem_take member)

theorem isValue_append {other : String} (isFront : isValue text = true)
    (isBack : isValue other = true) : isValue (text ++ other) = true := by
  rw [isValue_iff] at isFront isBack ⊢
  rw [String.toList_append]
  exact isFront.append isBack

/-- A text out of a list of such values, or none at all. -/
theorem areValue_getD {texts : List String} (all : ∀ text ∈ texts, AreValue text.toList)
    (index : Nat) : AreValue (texts.getD index "").toList := by
  rw [List.getD_eq_getElem?_getD]
  cases found : texts[index]? with
  | none => exact fun symbol member => absurd member (by simp)
  | some text => exact all text (List.mem_of_getElem? found)

/-! ### Numbers, dates and base 64 -/

theorem isValueSymbol_of_isDigit {symbol : Char} (digit : Text.Decimal.isDigit symbol = true) :
    isValueSymbol symbol = true := by
  have range := Text.range_of_isDigit (Text.isDigit_of_decimal digit)
  unfold isValueSymbol
  simp only [Bool.or_eq_true, Bool.and_eq_true, decide_eq_true_eq, bne_iff_ne]
  omega

private theorem areValue_pad (width number : Nat) : AreValue (Text.Decimal.pad width number) := by
  apply AreValue.append
  · intro symbol member
    rw [(List.mem_replicate.mp member).2]
    decide
  · exact fun symbol member =>
      isValueSymbol_of_isDigit ((Text.Decimal.spells_write number).all_digits symbol member)

private theorem areValue_writeYear (year : Int) : AreValue (Calendar.writeYear year) := by
  unfold Calendar.writeYear
  split
  · exact areValue_pad _ _
  · apply AreValue.cons
    · split <;> decide
    · exact areValue_pad _ _

theorem isValue_wire (instant : Calendar.Instant) : isValue instant.wire = true := by
  have months : ∀ name ∈ Calendar.monthNames, AreValue name.toList := by decide
  have weekdays : ∀ name ∈ Calendar.weekdayNames, AreValue name.toList := by decide
  have month : AreValue (Calendar.monthAbbreviation instant.date.month) :=
    (areValue_getD months _).take 3
  have weekday : AreValue (Calendar.weekdayAbbreviation instant.date.weekday) :=
    (areValue_getD weekdays _).take 3
  have comma : AreValue [',', ' '] := by decide
  have blank : AreValue [' '] := by decide
  have colon : AreValue [':'] := by decide
  have zone : AreValue " +0000".toList := by decide
  rw [isValue_iff]
  unfold Calendar.Instant.wire Calendar.Instant.wireFields
  rw [String.toList_ofList]
  exact ((((((((((((weekday.append comma).append (areValue_pad _ _)).append blank).append
    month).append blank).append (areValue_writeYear _)).append blank).append
      (areValue_pad _ _)).append colon).append (areValue_pad _ _)).append colon).append
        (areValue_pad _ _)).append zone

private theorem isValueSymbol_base64 (number : Nat) :
    isValueSymbol (Bytes.Base64.symbol number) = true := by
  have all : AreValue Bytes.Base64.alphabet := by decide
  unfold Bytes.Base64.symbol
  rw [List.getD_eq_getElem?_getD]
  cases found : Bytes.Base64.alphabet[number]? with
  | none => decide
  | some symbol => exact all symbol (List.mem_of_getElem? found)

theorem areValue_encode (octets : Bytes) : AreValue (Bytes.Base64.encode octets) := by
  have padding : isValueSymbol '=' = true := by decide
  fun_induction Bytes.Base64.encode octets with
  | case1 first second third rest group inductionHypothesis =>
    exact .cons (isValueSymbol_base64 _) (.cons (isValueSymbol_base64 _)
      (.cons (isValueSymbol_base64 _) (.cons (isValueSymbol_base64 _) inductionHypothesis)))
  | case2 first second group =>
    exact .cons (isValueSymbol_base64 _) (.cons (isValueSymbol_base64 _)
      (.cons (isValueSymbol_base64 _) (.cons padding (List.forall_mem_nil _))))
  | case3 first group =>
    exact .cons (isValueSymbol_base64 _) (.cons (isValueSymbol_base64 _)
      (.cons padding (.cons padding (List.forall_mem_nil _))))
  | case4 => exact List.forall_mem_nil _

end Http.Header

/-! ## Headers of requests -/

open Http (Header)

private theorem Signing.authorization_ok {accessKeyId secret : String} (some_secret : secret ≠ "")
    (isKey : Header.isValue accessKeyId = true) (text : String) :
    ∃ value, authorization text accessKeyId secret = .ok value ∧
      Header.isValue value = true := by
  unfold authorization signature
  rw [if_neg some_secret]
  refine ⟨_, rfl, ?_⟩
  apply Header.isValue_append
  · apply Header.isValue_append _ (by decide)
    exact Header.isValue_append (by decide) isKey
  · rw [Header.isValue_iff, String.toList_ofList]
    exact Header.areValue_encode _

/-- Requests are signed, and the headers of the signature are sound if the access
key is a value. -/
theorem Credentials.sign_ok {credentials : Credentials} (some_secret : credentials.secret ≠ "")
    (isKey : Header.isValue credentials.accessKeyId = true) (parts : SignedParts)
    (now : Calendar.Instant) :
    ∃ signed, credentials.sign parts now = .ok signed ∧
      ∀ header ∈ Client.signature signed, header.isSound = true := by
  obtain ⟨value, authorized, isValue⟩ :=
    Signing.authorization_ok some_secret isKey (parts.stringToSign now)
  have names : Header.isName "authorization" = true ∧ Header.isName "x-amz-date" = true := by
    decide
  refine ⟨⟨value, now.wire⟩, ?_, ?_⟩
  · unfold sign
    rw [authorized]
    rfl
  · intro header member
    unfold Client.signature at member
    rcases List.mem_cons.mp member with rfl | later
    · exact Bool.and_eq_true_iff.mpr ⟨names.1, isValue⟩
    · rw [List.mem_singleton.mp later]
      exact Bool.and_eq_true_iff.mpr ⟨names.2, Header.isValue_wire now⟩

private theorem Http.Call.isSound_loginHeader (login : String × String) :
    (loginHeader login).isSound = true := by
  have name : Header.isName "authorization" = true := by decide
  apply Bool.and_eq_true_iff.mpr
  refine ⟨name, Header.isValue_append (by decide) ?_⟩
  rw [Header.isValue_iff, String.toList_ofList]
  exact Header.areValue_encode _

/-- A call can be sent whatever the login in its address is. -/
theorem Http.Call.isSendable_toAddress {method : Method} {url : Url} {host : Option String}
    {headers : List Header} {content : Option Bytes}
    (isHost : ∀ name ∈ host, Header.isValue name = true)
    (sound : ∀ header ∈ headers, header.isSound = true) :
    (toAddress method url host headers content).isSendable = true := by
  have allSound : ((url.login.map loginHeader).toList ++ headers).all Header.isSound = true := by
    rw [List.all_append, List.all_eq_true.mpr sound, Bool.and_true]
    cases url.login with
    | none => rfl
    | some login =>
      simp [isSound_loginHeader login]
  have hostSound : host.all Header.isValue = true := by
    cases host with
    | none => rfl
    | some name => exact isHost name rfl
  unfold isSendable toAddress
  rw [allSound, hostSound]
  rfl

namespace Client

variable {client : Client} {key : String} {url : Url}

/-- What it takes for the requests of a client under a key to be sent: they can be signed,
headers can hold the access key and the host, and the key has an address. -/
structure CanSend (client : Client) (key : String) : Prop where
  secret : client.credentials.secret ≠ ""
  accessKeyId : Header.isValue client.credentials.accessKeyId = true
  host : ∀ name ∈ client.host, Header.isValue name = true
  address : ∃ url, Url.ofText? (client.address key) = some url

/-- Such a client makes a call that can be sent. -/
theorem CanSend.exists_call (able : client.CanSend key)
    (found : Url.ofText? (client.address key) = some url) (now : Calendar.Instant)
    (method : Method) (content : Option Bytes) :
    ∃ signed,
      client.credentials.sign (SignedParts.plain method client.bucket key) now = .ok signed ∧
      client.call now method key content =
        .ok (Http.Call.toAddress method url client.host (signature signed) content) ∧
      (Http.Call.toAddress method url client.host (signature signed) content).isSendable =
        true := by
  obtain ⟨signed, signing, sound⟩ := Credentials.sign_ok able.secret able.accessKeyId
    (SignedParts.plain method client.bucket key) now
  refine ⟨signed, signing, ?_, Http.Call.isSendable_toAddress able.host sound⟩
  unfold call
  rw [signing, found]
  rfl

end Client

end ContentStore
