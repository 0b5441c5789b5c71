import LanguageClient.Proofs.Rpc.Wire
import LanguageClient.Rpc.Inbound

/-!
# How messages are told apart

A message is a request, a notification or a reply by its `id` and `method` members alone, and each of
the three is described by what the members are (`classify_request_iff`, `classify_notification_iff`,
`classify_reply_iff`). For the replies to our own requests this is `answers_iff`: the messages that the
client takes for the reply to request `n` are the objects without a method whose `id` member is the
wire form of `n`.
-/

namespace LanguageClient.Rpc

open RequestId

/-- A reply frame that carries the wire form of request `n`: an object that names no method and
whose `id` member is that value. -/
structure Carries (n : Nat) (message : Json) : Prop where
  counted : n < RequestId.counted
  object : message.isObj = true
  id : message.member? "id" = some (RequestId.wire n)
  noMethod : Inbound.methodMember message = none

/-- A request from the server, told by its members: an identifier that can travel, and a method. -/
structure Asks (message : Json) (id : RequestId) (method : String) : Prop where
  fits : id.Fits
  id : message.member? "id" = some id.toJson
  method : message.member? "method" = some (.str method)

theorem isObj_of_member? {message value : Json} {key : String}
    (h : message.member? key = some value) : message.isObj = true := by
  cases message with
  | obj _ => rfl
  | _ => exact absurd h (by simp [Json.member?])

theorem methodMember_eq_some_iff {message : Json} {method : String} :
    Inbound.methodMember message = some method ↔ message.member? "method" = some (.str method) := by
  unfold Inbound.methodMember
  constructor
  · intro h
    obtain ⟨raw, hraw, htext⟩ := Option.bind_eq_some_iff.mp h
    cases raw with
    | str s =>
        obtain rfl := Option.some.inj htext
        exact hraw
    | _ => exact absurd htext (by simp [Json.str?])
  · intro h
    rw [h]
    rfl

/-- The identifier that a message has is the one whose JSON value is its member. -/
theorem identifier_eq_some_iff {message : Json} {id : RequestId} :
    (Inbound.idMember message).bind ofJson? = some id ↔
      id.Fits ∧ message.member? "id" = some id.toJson := by
  unfold Inbound.idMember present
  constructor
  · intro h
    obtain ⟨raw, hraw, hread⟩ := Option.bind_eq_some_iff.mp h
    obtain ⟨hfits, rfl⟩ := ofJson?_eq_some_iff.mp hread
    exact ⟨hfits, (Option.filter_eq_some_iff.mp hraw).1⟩
  · rintro ⟨hfits, hid⟩
    rw [hid, Option.filter_some, if_pos (by simp [isNull_toJson]), Option.bind_some]
    exact ofJson?_toJson hfits

/-- What the members of a message are if it is told apart as this. -/
def Inbound.ReadOff (message : Json) : Inbound → Prop
  | .request id method params =>
      (idMember message).bind ofJson? = some id ∧ methodMember message = some method ∧
        message.get "params" = params
  | .notification method params =>
      idMember message = none ∧ methodMember message = some method ∧ message.get "params" = params
  | .reply id result error =>
      (idMember message).bind ofJson? = some id ∧ methodMember message = none ∧
        message.get "result" = result ∧
        (message.member? "error").bind ErrorObject.ofJson? = error

theorem classify_eq_some_iff {message : Json} {i : Inbound} :
    Inbound.classify message = some i ↔ message.isObj = true ∧ i.ReadOff message := by
  unfold Inbound.classify
  cases hid : Inbound.idMember message with
  | none =>
      cases hmethod : Inbound.methodMember message <;> cases i <;>
        simp [Inbound.ReadOff, hid, hmethod]
  | some raw =>
      cases hread : ofJson? raw with
      | none => cases i <;> simp [Inbound.ReadOff, hid, hread]
      | some id =>
          cases hmethod : Inbound.methodMember message <;> cases i <;>
            simp [Inbound.ReadOff, hid, hread, hmethod]

theorem classify_request_iff {message params : Json} {id : RequestId} {method : String} :
    Inbound.classify message = some (.request id method params) ↔
      Asks message id method ∧ params = message.get "params" := by
  rw [classify_eq_some_iff, Inbound.ReadOff, identifier_eq_some_iff, methodMember_eq_some_iff]
  constructor
  · rintro ⟨-, ⟨hfits, hid⟩, hmethod, hparams⟩
    exact ⟨⟨hfits, hid, hmethod⟩, hparams.symm⟩
  · rintro ⟨h, hparams⟩
    exact ⟨isObj_of_member? h.id, ⟨h.fits, h.id⟩, h.method, hparams.symm⟩

theorem Asks.classify {message : Json} {id : RequestId} {method : String}
    (h : Asks message id method) :
    Inbound.classify message = some (.request id method (message.get "params")) :=
  classify_request_iff.mpr ⟨h, rfl⟩

theorem Asks.unique {message : Json} {id id' : RequestId} {method method' : String}
    (h : Asks message id method) (h' : Asks message id' method') : id = id' ∧ method = method' := by
  have hsame := Option.some.inj (h.classify.symm.trans h'.classify)
  obtain ⟨hid, hmethod, -⟩ := Inbound.request.inj hsame
  exact ⟨hid, hmethod⟩

theorem classify_notification_iff {message params : Json} {method : String} :
    Inbound.classify message = some (.notification method params) ↔
      Inbound.idMember message = none ∧ message.member? "method" = some (.str method) ∧
        params = message.get "params" := by
  rw [classify_eq_some_iff, Inbound.ReadOff, methodMember_eq_some_iff]
  constructor
  · rintro ⟨-, hid, hmethod, hparams⟩
    exact ⟨hid, hmethod, hparams.symm⟩
  · rintro ⟨hid, hmethod, hparams⟩
    exact ⟨isObj_of_member? hmethod, hid, hmethod, hparams.symm⟩

theorem classify_reply_iff {message result : Json} {id : RequestId} {error : Option ErrorObject} :
    Inbound.classify message = some (.reply id result error) ↔
      message.isObj = true ∧ (Inbound.idMember message).bind ofJson? = some id ∧
        Inbound.methodMember message = none ∧ result = message.get "result" ∧
        error = (message.member? "error").bind ErrorObject.ofJson? := by
  rw [classify_eq_some_iff, Inbound.ReadOff, eq_comm (a := result), eq_comm (a := error)]

theorem Carries.classify {n : Nat} {message : Json} (h : Carries n message) :
    ∃ id error, Inbound.classify message = some (.reply id (message.get "result") error) ∧
      id.toNat? = some n := by
  have hid : Inbound.idMember message = some (wire n) := by
    unfold Inbound.idMember present
    rw [h.id]
    simp [wire_isNull]
  obtain ⟨id, hread, hcount⟩ :=
    Option.bind_eq_some_iff.mp (toNat?_ofJson?.mpr ⟨h.counted, rfl⟩)
  exact ⟨id, _, classify_reply_iff.mpr
    ⟨h.object, by rw [hid]; exact hread, h.noMethod, rfl, rfl⟩, hcount⟩

theorem carries_of_reply {n : Nat} {message result : Json} {id : RequestId}
    {error : Option ErrorObject}
    (h : Inbound.classify message = some (.reply id result error)) (hcount : id.toNat? = some n) :
    Carries n message := by
  obtain ⟨hobj, hread, hmethod, -, -⟩ := classify_reply_iff.mp h
  obtain ⟨raw, hid, hraw⟩ := Option.bind_eq_some_iff.mp hread
  have hwire : (ofJson? raw).bind toNat? = some n := by rw [hraw]; exact hcount
  obtain ⟨hlt, rfl⟩ := toNat?_ofJson?.mp hwire
  exact ⟨hlt, hobj, (Option.filter_eq_some_iff.mp hid).1, hmethod⟩

/-- The messages that are taken for the reply to request `n` are those that carry its wire form. -/
theorem answers_iff {n : Nat} {message : Json} :
    (∃ id result error, Inbound.classify message = some (.reply id result error) ∧
      id.toNat? = some n) ↔ Carries n message := by
  constructor
  · rintro ⟨id, result, error, hclass, hcount⟩
    exact carries_of_reply hclass hcount
  · intro h
    obtain ⟨id, error, hclass, hcount⟩ := h.classify
    exact ⟨id, _, error, hclass, hcount⟩

theorem Carries.unique {n k : Nat} {message : Json} (hn : Carries n message)
    (hk : Carries k message) : n = k := by
  obtain ⟨id, error, hclass, hcount⟩ := hn.classify
  obtain ⟨id', error', hclass', hcount'⟩ := hk.classify
  rw [hclass, Option.some.injEq, Inbound.reply.injEq] at hclass'
  obtain ⟨rfl, -, -⟩ := hclass'
  exact Option.some.inj (hcount.symm.trans hcount')

end LanguageClient.Rpc
