import TheokitGateways.Js.Convert
import TheokitGateways.Js.OrderedMap
import TheokitGateways.WhatsApp.BackendTypes

/-!
# The envelope of a WhatsApp Cloud webhook

`parseWebhookPayload` refuses a body whose shape the normalizers cannot read;
`MetaWebhookEnvelope` carries that it was not refused, so that the fields an
event copies are strings. Timestamps are not checked: converting one can throw.
One reading of the clock stands for those of one pass over an envelope.
-/

namespace TheokitGateways.WhatsApp
open Js Gateway

def isRecord : Json → Bool
  | .object _ | .array _ => true
  | _ => false

/-- `typeof v === "string"`. -/
def isText (v : Option Json) : Bool := (optString v).isSome

/-- Absent, or a string. -/
def isOptionalText (v : Option Json) : Bool := v.isNone || isText v

def isWellFormedMetadata : Option Json → Bool
  | none | some .null => true
  | some metadata => isRecord metadata && isOptionalText (metadata.get (js "phone_number_id"))

def isTextMessage (message : Json) : Bool :=
  optString (message.get (js "type")) = some (js "text")

def isReadableMessage (message : Json) : Bool :=
  !isTextMessage message ||
    isText (message.get (js "id")) && isText (message.get (js "from")) &&
      match message.get (js "text") with
      | none => true
      | some text => isRecord text && isText (text.get (js "body"))

def isReadableContact (contact : Json) : Bool :=
  isText (contact.get (js "wa_id")) &&
    match contact.get (js "profile") with
    | none => true
    | some profile => isRecord profile && isOptionalText (profile.get (js "name"))

def isReadableStatus (status : Json) : Bool :=
  isText (status.get (js "id")) && isText (status.get (js "status")) &&
    isText (status.get (js "recipient_id"))

/-- Absent, or a list of objects that each pass `isReadable`. -/
def isOptionalReadableList (isReadable : Json → Bool) : Option Json → Bool
  | none => true
  | some (.array list) => list.all isRecord && list.all isReadable
  | some _ => false

def isWellFormedValue : Option Json → Bool
  | none | some .null => true
  | some value =>
    isRecord value && isWellFormedMetadata (value.get (js "metadata")) &&
      isOptionalReadableList isReadableContact (value.get (js "contacts")) &&
      isOptionalReadableList isReadableMessage (value.get (js "messages")) &&
      isOptionalReadableList isReadableStatus (value.get (js "statuses"))

/-- An array whose every item passes `p`. -/
def isArrayOf (p : Json → Bool) : Option Json → Bool
  | some (.array list) => list.all p
  | _ => false

def isWellFormedEntry (entry : Json) : Bool :=
  isRecord entry && isArrayOf
    (fun change => isRecord change && isWellFormedValue (change.get (js "value")))
    (entry.get (js "changes"))

def isWellFormedEnvelope (json : Json) : Bool :=
  isRecord json && (json.get (js "object")).isSome &&
    isArrayOf isWellFormedEntry (json.get (js "entry"))

structure MetaWebhookEnvelope where
  json : Json
  wellFormed : isWellFormedEnvelope json = true

def parseWebhookPayload (json : Json) : Option MetaWebhookEnvelope :=
  if h : isWellFormedEnvelope json = true then some ⟨json, h⟩ else none

/-- The items of a list that may be absent: `list ?? []`. -/
def items : Option Json → List Json
  | some (.array list) => list
  | _ => []

/-- What a loop that may throw collects. -/
def collect {α β ε : Type} (f : α → Except ε (List β)) : List α → Except ε (List β)
  | [] => .ok []
  | a :: as => do
    let bs ← f a
    let rest ← collect f as
    return bs ++ rest

/-- `Number(timestamp) * 1000 || Date.now()`; the error is the message of a `TypeError`. -/
def millis (timestamp : Option Json) (now : JsNumber) : Except JsString JsNumber :=
  match timestamp with
  | none => .ok now
  | some timestamp => do
    let ms := (← timestamp.toNumber) * 1000
    return if ms = .nan ∨ ms = 0 then now else ms

/-- A field that was checked to be a string. -/
def textField (v : Json) (key : JsString) : JsString := (optString (v.get key)).getD []

def buildContactMap (value : Json) : OrderedMap JsString (Option JsString) :=
  (items (value.get (js "contacts"))).foldl
    (fun contacts c => contacts.set (textField c (js "wa_id"))
      (optString (optGet (c.get (js "profile")) (js "name"))))
    .empty

/-- The event of a message, unless it is not a text. -/
def normalizeOneMessage (phoneNumberId : Option JsString)
    (contactByWaId : OrderedMap JsString (Option JsString)) (now : JsNumber) (msg : Json) :
    Except JsString (List WhatsAppInboundEvent) :=
  if !isTextMessage msg then .ok []
  else do
    let receivedAt ← millis (msg.get (js "timestamp")) now
    return [{
      wamid := textField msg (js "id")
      fromPhone := textField msg (js "from")
      phoneNumberId := phoneNumberId
      contactName := (contactByWaId.get (textField msg (js "from"))).join
      conversationType := .dm
      channelId := textField msg (js "from")
      text := (optString (optGet (msg.get (js "text")) (js "body"))).getD []
      receivedAt := receivedAt
      backend := .cloud
      raw := msg }]

/-- The number a value is addressed to. -/
def phoneNumberIdOf (value : Json) : Option JsString :=
  optString (optGet (value.get (js "metadata")) (js "phone_number_id"))

def processChange (now : JsNumber) (change : Json) :
    Except JsString (List WhatsAppInboundEvent) :=
  match change.get (js "value") with
  | none | some .null => .ok []
  | some value =>
    collect (normalizeOneMessage (phoneNumberIdOf value) (buildContactMap value) now)
      (items (value.get (js "messages")))

/-- The changes of an envelope, in order. -/
def changesOf (json : Json) : List Json :=
  (items (json.get (js "entry"))).flatMap fun entry => items (entry.get (js "changes"))

def normalizeInboundMessages (envelope : MetaWebhookEnvelope) (now : JsNumber) :
    Except JsString (List WhatsAppInboundEvent) :=
  collect (processChange now) (changesOf envelope.json)

def metaStatusToReceipt (phoneNumberId : Option JsString) (now : JsNumber) (s : Json) :
    Except JsString (List WhatsAppStatusReceipt) := do
  let timestamp ← millis (s.get (js "timestamp")) now
  return [{
    wamid := textField s (js "id")
    status := textField s (js "status")
    recipient := textField s (js "recipient_id")
    timestamp := timestamp
    phoneNumberId := phoneNumberId }]

/-- The receipts of one change. -/
def receiptsOf (now : JsNumber) (change : Json) : Except JsString (List WhatsAppStatusReceipt) :=
  match change.get (js "value") with
  | none => .ok []
  | some value =>
    collect (metaStatusToReceipt (phoneNumberIdOf value) now) (items (value.get (js "statuses")))

def normalizeStatusReceipts (envelope : MetaWebhookEnvelope) (now : JsNumber) :
    Except JsString (List WhatsAppStatusReceipt) :=
  collect (receiptsOf now) (changesOf envelope.json)

/-! ## What an envelope holds -/

/-- The values of an envelope's changes, in order. -/
def valuesOf (json : Json) : List Json :=
  (changesOf json).flatMap fun change => (change.get (js "value")).toList

/-- The text messages of an envelope with the number each is addressed to, in order. -/
def textMessages (json : Json) : List (Option JsString × Json) :=
  (valuesOf json).flatMap fun value =>
    ((items (value.get (js "messages"))).filter isTextMessage).map
      (phoneNumberIdOf value, ·)

/-- The text messages that are addressed to a number, in order. -/
def addressedTexts (number : JsString) (json : Json) : List Json :=
  ((textMessages json).filter (·.1 = some number)).map Prod.snd

/-- A timestamp is absent, a string or a number. -/
def isTimestamp : Option Json → Bool
  | none | some (.string _) | some (.number _) => true
  | _ => false

/-- Every message and status has a timestamp that can be converted. -/
def Timed (json : Json) : Prop :=
  ∀ value ∈ valuesOf json, ∀ key ∈ [js "messages", js "statuses"],
    ∀ item ∈ items (value.get key), isTimestamp (item.get (js "timestamp")) = true

theorem millis_ok {timestamp : Option Json} (h : isTimestamp timestamp = true) (now : JsNumber) :
    ∃ ms, millis timestamp now = .ok ms := by
  unfold isTimestamp at h
  split at h
  · exact ⟨_, rfl⟩
  · exact ⟨_, rfl⟩
  · exact ⟨_, rfl⟩
  · cases h

/-- A loop whose rounds do not throw collects what its rounds do. -/
theorem collect_ok {α β γ ε : Type} {f : α → Except ε (List β)} {g : β → γ} {h : α → List γ}
    {as : List α} (hf : ∀ a ∈ as, ∃ bs, f a = .ok bs ∧ bs.map g = h a) :
    ∃ bs, collect f as = .ok bs ∧ bs.map g = as.flatMap h := by
  induction as with
  | nil => exact ⟨[], rfl, rfl⟩
  | cons a as ih =>
    obtain ⟨ha, has⟩ := List.forall_mem_cons.1 hf
    obtain ⟨bs, hbs, hmap⟩ := ha
    obtain ⟨rest, hrest, hmaps⟩ := ih has
    refine ⟨bs ++ rest, ?_, ?_⟩
    · rw [collect, hbs, hrest]
      rfl
    · rw [List.map_append, hmap, hmaps, List.flatMap_cons]

theorem normalizeOneMessage_ok {msg : Json}
    (h : isTimestamp (msg.get (js "timestamp")) = true) (phoneNumberId : Option JsString)
    (contacts : OrderedMap JsString (Option JsString)) (now : JsNumber) :
    ∃ events, normalizeOneMessage phoneNumberId contacts now msg = .ok events ∧
      events.map (fun e => (e.phoneNumberId, e.raw)) =
        ([msg].filter isTextMessage).map (phoneNumberId, ·) := by
  unfold normalizeOneMessage
  cases htext : isTextMessage msg with
  | false => exact ⟨[], rfl, by simp [htext]⟩
  | true =>
    obtain ⟨ms, hms⟩ := millis_ok h now
    refine ⟨_, by rw [hms]; rfl, ?_⟩
    simp [htext]

theorem processChange_ok {change : Json}
    (h : ∀ value, change.get (js "value") = some value →
      ∀ item ∈ items (value.get (js "messages")), isTimestamp (item.get (js "timestamp")) = true)
    (now : JsNumber) :
    ∃ events, processChange now change = .ok events ∧
      events.map (fun e => (e.phoneNumberId, e.raw)) =
        (change.get (js "value")).toList.flatMap fun value =>
          ((items (value.get (js "messages"))).filter isTextMessage).map
            (phoneNumberIdOf value, ·) := by
  unfold processChange
  split
  · rename_i hnone
    exact ⟨[], rfl, by rw [hnone]; rfl⟩
  · rename_i hnull
    exact ⟨[], rfl, by rw [hnull]; rfl⟩
  · rename_i value _ hvalue
    obtain ⟨events, hevents, hmap⟩ := collect_ok fun msg hmsg =>
      normalizeOneMessage_ok (h value hvalue msg hmsg) (phoneNumberIdOf value)
        (buildContactMap value) now
    refine ⟨events, hevents, ?_⟩
    have hfilter (list : List Json) :
        (list.flatMap fun msg => [msg].filter isTextMessage) = list.filter isTextMessage := by
      rw [← List.filter_flatMap, List.flatMap_singleton']
    rw [hmap, hvalue, Option.toList_some, List.flatMap_singleton, ← List.map_flatMap, hfilter]

/-- With timestamps that can be converted, the messages are normalized: one event for each text
message, in order. -/
theorem normalizeInboundMessages_ok {envelope : MetaWebhookEnvelope} (h : Timed envelope.json)
    (now : JsNumber) :
    ∃ events, normalizeInboundMessages envelope now = .ok events ∧
      events.map (fun e => (e.phoneNumberId, e.raw)) = textMessages envelope.json := by
  have hchange (change : Json) (hchange : change ∈ changesOf envelope.json) (value : Json)
      (hvalue : change.get (js "value") = some value) : value ∈ valuesOf envelope.json :=
    List.mem_flatMap.2 ⟨change, hchange, by simp [hvalue]⟩
  obtain ⟨events, hevents, hmap⟩ := collect_ok fun change hmem => processChange_ok
    (fun value hvalue => h value (hchange change hmem value hvalue) _ (by simp)) now
  refine ⟨events, hevents, ?_⟩
  rw [hmap, textMessages, valuesOf, List.flatMap_assoc]

/-- The events that are addressed to a number are of the text messages that are. -/
theorem map_raw_filter {events : List WhatsAppInboundEvent} {json : Json} (number : JsString)
    (h : events.map (fun e => (e.phoneNumberId, e.raw)) = textMessages json) :
    (events.filter fun e => e.phoneNumberId = some number).map (·.raw) =
      addressedTexts number json := by
  rw [addressedTexts, ← h, List.filter_map, List.map_map]
  rfl

/-- With timestamps that can be converted, there is one receipt for each status, in order. -/
theorem normalizeStatusReceipts_ok {envelope : MetaWebhookEnvelope} (h : Timed envelope.json)
    (now : JsNumber) :
    ∃ receipts, normalizeStatusReceipts envelope now = .ok receipts ∧
      receipts.map (fun r => (r.phoneNumberId, r.wamid)) =
        (valuesOf envelope.json).flatMap fun value =>
          (items (value.get (js "statuses"))).map
            fun s => (phoneNumberIdOf value, textField s (js "id")) := by
  have hchange : ∀ change ∈ changesOf envelope.json, ∃ receipts,
      receiptsOf now change = .ok receipts ∧
        receipts.map (fun r => (r.phoneNumberId, r.wamid)) =
          (change.get (js "value")).toList.flatMap fun value =>
            (items (value.get (js "statuses"))).map
              fun s => (phoneNumberIdOf value, textField s (js "id")) := by
    intro change hmem
    unfold receiptsOf
    split
    · rename_i hnone
      exact ⟨[], rfl, by rw [hnone]; rfl⟩
    · rename_i value hvalue
      have hvalues : value ∈ valuesOf envelope.json :=
        List.mem_flatMap.2 ⟨change, hmem, by simp [hvalue]⟩
      have hstatus : ∀ s ∈ items (value.get (js "statuses")), ∃ receipts,
          metaStatusToReceipt (phoneNumberIdOf value) now s = .ok receipts ∧
            receipts.map (fun r => (r.phoneNumberId, r.wamid)) =
              [(phoneNumberIdOf value, textField s (js "id"))] := by
        intro s hs
        obtain ⟨ms, hms⟩ := millis_ok (h value hvalues (js "statuses") (by simp) s hs) now
        refine ⟨_, by rw [metaStatusToReceipt, hms]; rfl, rfl⟩
      obtain ⟨receipts, hreceipts, hmap⟩ := collect_ok hstatus
      refine ⟨receipts, hreceipts, ?_⟩
      rw [hmap, hvalue, Option.toList_some, List.flatMap_singleton, List.map_eq_flatMap]
  obtain ⟨receipts, hreceipts, hmap⟩ := collect_ok hchange
  refine ⟨receipts, hreceipts, ?_⟩
  rw [hmap, valuesOf, List.flatMap_assoc]

end TheokitGateways.WhatsApp
