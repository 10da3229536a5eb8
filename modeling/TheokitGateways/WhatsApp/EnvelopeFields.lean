import TheokitGateways.WhatsApp.Envelope

/-!
# What the normalizers make of an envelope

The shape that is checked makes every field an event or a receipt copies a string,
and nothing that is read of it throws but the conversion of a timestamp. So both
normalizers return exactly when the timestamps they convert can be converted, and
then with one event for each text message and one receipt for each status.
-/

namespace TheokitGateways.WhatsApp
open Js Gateway

/-! ## Fields -/

/-- The text messages of an envelope with the value each stands in, in order. -/
def textsOf (json : Json) : List (Json × Json) :=
  (valuesOf json).flatMap fun value =>
    ((items (value.get (js "messages"))).filter isTextMessage).map (value, ·)

/-- The statuses of an envelope with the value each stands in, in order. -/
def statusesOf (json : Json) : List (Json × Json) :=
  (valuesOf json).flatMap fun value => (items (value.get (js "statuses"))).map (value, ·)

@[ext] structure EventFields where
  wamid : Option Json
  fromPhone : Option Json
  channelId : Option Json
  text : Option Json
  phoneNumberId : Option Json
  contactName : Option Json
  raw : Json

/-- What an event copies of a message and of the value it stands in, whatever its type. -/
def eventFields (p : Json × Json) : EventFields where
  wamid := p.2.get (js "id")
  fromPhone := p.2.get (js "from")
  channelId := p.2.get (js "from")
  text := some (Json.orElse (optGet (p.2.get (js "text")) (js "body")) (.string []))
  phoneNumberId := optGet (p.1.get (js "metadata")) (js "phone_number_id")
  contactName := ((items (p.1.get (js "contacts"))).reverse.find? fun c =>
    textField c (js "wa_id") = textField p.2 (js "from")).bind
      fun c => optGet (c.get (js "profile")) (js "name")
  raw := p.2

def WhatsAppInboundEvent.fields (e : WhatsAppInboundEvent) : EventFields where
  wamid := some (.string e.wamid)
  fromPhone := some (.string e.fromPhone)
  channelId := some (.string e.channelId)
  text := some (.string e.text)
  phoneNumberId := e.phoneNumberId.map .string
  contactName := e.contactName.map .string
  raw := e.raw

@[ext] structure ReceiptFields where
  wamid : Option Json
  status : Option Json
  recipient : Option Json
  phoneNumberId : Option Json

/-- What a receipt copies of a status and of the value it stands in. -/
def receiptFields (p : Json × Json) : ReceiptFields where
  wamid := p.2.get (js "id")
  status := p.2.get (js "status")
  recipient := p.2.get (js "recipient_id")
  phoneNumberId := optGet (p.1.get (js "metadata")) (js "phone_number_id")

def WhatsAppStatusReceipt.fields (r : WhatsAppStatusReceipt) : ReceiptFields where
  wamid := some (.string r.wamid)
  status := some (.string r.status)
  recipient := some (.string r.recipient)
  phoneNumberId := r.phoneNumberId.map .string

/-- A timestamp that `Number` converts. -/
def Converts (timestamp : Option Json) : Prop :=
  ∀ v, timestamp = some v → ∃ n, v.toNumber = .ok n

/-! ## Loops -/

section
variable {α β γ ε : Type} {f : α → Except ε (List β)}

/-- A loop returns when each of its rounds does. -/
theorem collect_isOk {as : List α} :
    (∃ bs, collect f as = .ok bs) ↔ ∀ a ∈ as, ∃ bs, f a = .ok bs := by
  induction as with
  | nil => simp [collect]
  | cons a as ih =>
    rw [List.forall_mem_cons, ← ih, collect]
    cases f a <;> cases collect f as <;> simp [bind, Except.bind, pure, Except.pure]

theorem map_collect {g : β → γ} {h : α → List γ} {as : List α} {bs : List β}
    (hf : ∀ a ∈ as, ∀ bs, f a = .ok bs → bs.map g = h a) (hbs : collect f as = .ok bs) :
    bs.map g = as.flatMap h := by
  have hrounds := collect_isOk.1 ⟨bs, hbs⟩
  obtain ⟨cs, hcs, hmap⟩ := collect_ok (g := g) (h := h) fun a ha =>
    have ⟨bs, hbs⟩ := hrounds a ha
    ⟨bs, hbs, hf a ha bs hbs⟩
  obtain rfl := Except.ok.inj (hbs.symm.trans hcs)
  exact hmap

end

/-! ## Shapes -/

theorem eq_of_isText {v : Option Json} (h : isText v = true) :
    v = some (.string ((optString v).getD [])) := by
  obtain ⟨s, hs⟩ := Option.isSome_iff_exists.1 h
  rw [hs]
  exact optString_eq_some.1 hs

theorem eq_of_isOptionalText {v : Option Json} (h : isOptionalText v = true) :
    v = (optString v).map .string := by
  cases v with
  | none => rfl
  | some v =>
    have hs := eq_of_isText (v := some v) (by simpa [isOptionalText] using h)
    rw [hs]
    rfl

theorem forall_items_of_isArrayOf {p : Json → Bool} {v : Option Json} (h : isArrayOf p v = true) :
    ∀ item ∈ items v, p item = true := by
  unfold isArrayOf at h
  split at h
  · exact List.all_eq_true.1 h
  · cases h

theorem forall_items_of_isOptionalReadableList {p : Json → Bool} {v : Option Json}
    (h : isOptionalReadableList p v = true) : ∀ item ∈ items v, p item = true := by
  unfold isOptionalReadableList at h
  split at h
  · exact fun _ hitem => nomatch hitem
  · exact List.all_eq_true.1 (Bool.and_eq_true_iff.1 h).2
  · cases h

/-- The values of an envelope are checked. -/
theorem wellFormed_value {json value : Json} (h : isWellFormedEnvelope json = true)
    (hvalue : value ∈ valuesOf json) : isWellFormedValue (some value) = true := by
  obtain ⟨_, hentries⟩ := Bool.and_eq_true_iff.1 h
  obtain ⟨change, hchange, hvalue⟩ := List.mem_flatMap.1 hvalue
  obtain ⟨entry, hentry, hchange⟩ := List.mem_flatMap.1 hchange
  have hchanges := (Bool.and_eq_true_iff.1
    (forall_items_of_isArrayOf hentries entry hentry)).2
  have hchecked := (Bool.and_eq_true_iff.1
    (forall_items_of_isArrayOf hchanges change hchange)).2
  rwa [Option.mem_toList.1 hvalue] at hchecked

/-- What the check of a value says of what is read of it. -/
structure ReadableValue (value : Json) : Prop where
  phoneNumberId : isOptionalText (optGet (value.get (js "metadata")) (js "phone_number_id")) = true
  contacts : ∀ c ∈ items (value.get (js "contacts")), isReadableContact c = true
  messages : ∀ msg ∈ items (value.get (js "messages")), isReadableMessage msg = true
  statuses : ∀ s ∈ items (value.get (js "statuses")), isReadableStatus s = true

theorem readableValue {value : Json} (h : isWellFormedValue (some value) = true) :
    ReadableValue value := by
  by_cases hnull : value = .null
  · subst hnull
    exact ⟨rfl, fun _ hc => (nomatch hc), fun _ hc => (nomatch hc), fun _ hc => (nomatch hc)⟩
  · have hparts : (isRecord value && isWellFormedMetadata (value.get (js "metadata")) &&
        isOptionalReadableList isReadableContact (value.get (js "contacts")) &&
        isOptionalReadableList isReadableMessage (value.get (js "messages")) &&
        isOptionalReadableList isReadableStatus (value.get (js "statuses"))) = true := by
      unfold isWellFormedValue at h
      split at h
      · cases ‹some value = none›
      · exact absurd (Option.some.inj ‹_›) hnull
      · rename_i v _ hv
        obtain rfl := Option.some.inj hv
        exact h
    simp only [Bool.and_eq_true] at hparts
    obtain ⟨⟨⟨⟨_, hmetadata⟩, hcontacts⟩, hmessages⟩, hstatuses⟩ := hparts
    refine ⟨?_, forall_items_of_isOptionalReadableList hcontacts,
      forall_items_of_isOptionalReadableList hmessages,
      forall_items_of_isOptionalReadableList hstatuses⟩
    unfold isWellFormedMetadata at hmetadata
    split at hmetadata
    · rename_i hnone
      rw [hnone]
      rfl
    · rename_i hnone
      rw [hnone]
      rfl
    · rename_i metadata _ hsome
      rw [hsome]
      exact (Bool.and_eq_true_iff.1 hmetadata).2

/-- The values of a change of an envelope that was not refused. -/
theorem readableChange {envelope : MetaWebhookEnvelope} {change : Json}
    (hchange : change ∈ changesOf envelope.json) :
    ∀ value ∈ (change.get (js "value")).toList, ReadableValue value := fun _ hvalue =>
  readableValue (wellFormed_value envelope.wellFormed
    (List.mem_flatMap.2 ⟨change, hchange, hvalue⟩))

/-! ## Messages -/

theorem millis_isOk {timestamp : Option Json} (now : JsNumber) :
    (∃ ms, millis timestamp now = .ok ms) ↔ Converts timestamp := by
  unfold millis Converts
  cases timestamp with
  | none => simp
  | some v => cases hn : v.toNumber <;> simp [hn, bind, Except.bind, pure, Except.pure]

/-- The name under an id is that of the last contact with the id. -/
theorem get_buildContactMap {value : Json}
    (h : ∀ c ∈ items (value.get (js "contacts")), isReadableContact c = true) {waId : JsString} :
    ((buildContactMap value).get waId).join.map Json.string =
      ((items (value.get (js "contacts"))).reverse.find? fun c =>
        textField c (js "wa_id") = waId).bind
          fun c => optGet (c.get (js "profile")) (js "name") := by
  rw [buildContactMap, OrderedMap.get_foldl_set_last (fun c => textField c (js "wa_id"))
    (fun c => optString (optGet (c.get (js "profile")) (js "name")))]
  cases hfind : (items (value.get (js "contacts"))).reverse.find? fun c =>
      textField c (js "wa_id") = waId with
  | none => rfl
  | some c =>
    have hc := h c (List.mem_reverse.1 (List.mem_of_find?_eq_some hfind))
    have hname : isOptionalText (optGet (c.get (js "profile")) (js "name")) = true := by
      have hprofile := (Bool.and_eq_true_iff.1 hc).2
      cases hp : c.get (js "profile") with
      | none => rfl
      | some profile =>
        rw [hp] at hprofile
        exact (Bool.and_eq_true_iff.1 hprofile).2
    exact (eq_of_isOptionalText hname).symm

theorem normalizeOneMessage_isOk {phoneNumberId : Option JsString}
    {contacts : OrderedMap JsString (Option JsString)} {now : JsNumber} {msg : Json}
    (htext : isTextMessage msg = true) :
    (∃ events, normalizeOneMessage phoneNumberId contacts now msg = .ok events) ↔
      Converts (msg.get (js "timestamp")) := by
  rw [← millis_isOk now]
  simp only [normalizeOneMessage, htext, Bool.not_true, Bool.false_eq_true, if_false]
  cases millis (msg.get (js "timestamp")) now <;> simp [bind, Except.bind, pure, Except.pure]

/-- The event of a message copies what is read, which is strings. -/
theorem fields_normalizeOneMessage {value msg : Json} (hvalue : ReadableValue value)
    (hmsg : msg ∈ items (value.get (js "messages"))) {now : JsNumber}
    {events : List WhatsAppInboundEvent}
    (h : normalizeOneMessage (phoneNumberIdOf value) (buildContactMap value) now msg =
      .ok events) :
    events.map WhatsAppInboundEvent.fields =
      ([msg].filter isTextMessage).map fun msg => eventFields (value, msg) := by
  unfold normalizeOneMessage at h
  cases htext : isTextMessage msg with
  | false =>
    rw [htext] at h
    obtain rfl := Except.ok.inj h
    simp [htext]
  | true =>
    rw [htext] at h
    obtain ⟨ms, _, hevents⟩ := bind_eq_ok.1 h
    obtain rfl := Except.ok.inj hevents
    have hreadable := hvalue.messages msg hmsg
    simp only [isReadableMessage, htext, Bool.not_true, Bool.false_or, Bool.and_eq_true]
      at hreadable
    obtain ⟨⟨hid, hfrom⟩, hbody⟩ := hreadable
    have hcopied : Json.orElse (optGet (msg.get (js "text")) (js "body")) (.string []) =
        .string ((optString (optGet (msg.get (js "text")) (js "body"))).getD []) := by
      cases hbodyof : msg.get (js "text") with
      | none => rfl
      | some text =>
        rw [hbodyof] at hbody
        have heq := eq_of_isText (Bool.and_eq_true_iff.1 hbody).2
        show Json.orElse (text.get (js "body")) _ = .string ((optString (text.get _)).getD [])
        rw [heq]
        rfl
    rw [List.filter_cons_of_pos htext]
    refine congrArg (fun fields => [fields]) (EventFields.ext ?_ ?_ ?_ ?_ ?_ ?_ rfl)
    · exact (eq_of_isText hid).symm
    · exact (eq_of_isText hfrom).symm
    · exact (eq_of_isText hfrom).symm
    · exact congrArg some hcopied.symm
    · exact (eq_of_isOptionalText hvalue.phoneNumberId).symm
    · exact get_buildContactMap hvalue.contacts

theorem processChange_isOk {change : Json} {now : JsNumber} :
    (∃ events, processChange now change = .ok events) ↔
      ∀ value ∈ (change.get (js "value")).toList, ∀ msg ∈ items (value.get (js "messages")),
        isTextMessage msg = true → Converts (msg.get (js "timestamp")) := by
  unfold processChange
  split
  · rename_i hnone
    simp [hnone]
  · rename_i hnull
    refine iff_of_true ⟨[], rfl⟩ fun value hvalue msg hmsg => ?_
    rw [hnull, Option.toList_some, List.mem_singleton] at hvalue
    subst hvalue
    cases hmsg
  · rename_i value _ hvalue
    rw [collect_isOk, hvalue]
    simp only [Option.toList_some, List.mem_singleton, forall_eq]
    refine forall_congr' fun msg => imp_congr_right fun _ => ?_
    cases htext : isTextMessage msg with
    | false => simp [normalizeOneMessage, htext]
    | true => simpa using normalizeOneMessage_isOk htext

theorem fields_processChange {change : Json} {now : JsNumber} {events : List WhatsAppInboundEvent}
    (hreadable : ∀ value ∈ (change.get (js "value")).toList, ReadableValue value)
    (h : processChange now change = .ok events) :
    events.map WhatsAppInboundEvent.fields =
      (change.get (js "value")).toList.flatMap fun value =>
        ((items (value.get (js "messages"))).filter isTextMessage).map
          fun msg => eventFields (value, msg) := by
  unfold processChange at h
  split at h
  · rename_i hnone
    obtain rfl := Except.ok.inj h
    rw [hnone]
    rfl
  · rename_i hnull
    obtain rfl := Except.ok.inj h
    rw [hnull]
    rfl
  · rename_i value _ hvalue
    have hvalue' : ReadableValue value := hreadable value (by simp [hvalue])
    have hmap := map_collect (fun msg hmsg _ => fields_normalizeOneMessage hvalue' hmsg) h
    have hfilter (list : List Json) :
        (list.flatMap fun msg => [msg].filter isTextMessage) = list.filter isTextMessage := by
      rw [← List.filter_flatMap, List.flatMap_singleton']
    rw [hmap, hvalue, Option.toList_some, List.flatMap_singleton, ← List.map_flatMap, hfilter]

theorem normalizeInboundMessages_isOk {envelope : MetaWebhookEnvelope} (now : JsNumber) :
    (∃ events, normalizeInboundMessages envelope now = .ok events) ↔
      ∀ p ∈ textsOf envelope.json, Converts (p.2.get (js "timestamp")) := by
  rw [normalizeInboundMessages, collect_isOk]
  simp only [processChange_isOk, textsOf, valuesOf, List.mem_flatMap, List.mem_map,
    List.mem_filter, forall_exists_index, and_imp]
  grind

theorem fields_normalizeInboundMessages {envelope : MetaWebhookEnvelope} {now : JsNumber}
    {events : List WhatsAppInboundEvent} (h : normalizeInboundMessages envelope now = .ok events) :
    events.map WhatsAppInboundEvent.fields = (textsOf envelope.json).map eventFields := by
  rw [map_collect (fun change hchange _ => fields_processChange (readableChange hchange)) h,
    textsOf, valuesOf, List.flatMap_assoc, List.map_flatMap]
  simp [List.map_flatMap, Function.comp_def]

/-! ## Statuses -/

theorem receiptsOf_isOk {change : Json} {now : JsNumber} :
    (∃ receipts, receiptsOf now change = .ok receipts) ↔
      ∀ value ∈ (change.get (js "value")).toList, ∀ s ∈ items (value.get (js "statuses")),
        Converts (s.get (js "timestamp")) := by
  unfold receiptsOf
  split
  · rename_i hnone
    simp [hnone]
  · rename_i value hvalue
    rw [collect_isOk, hvalue]
    simp only [Option.toList_some, List.mem_singleton, forall_eq]
    refine forall_congr' fun s => imp_congr_right fun _ => ?_
    rw [← millis_isOk now, metaStatusToReceipt]
    cases millis (s.get (js "timestamp")) now <;> simp [bind, Except.bind, pure, Except.pure]

/-- The receipt of a status copies what is read, which is strings. -/
theorem fields_metaStatusToReceipt {value s : Json} (hvalue : ReadableValue value)
    (hs : s ∈ items (value.get (js "statuses"))) {now : JsNumber}
    {receipts : List WhatsAppStatusReceipt}
    (h : metaStatusToReceipt (phoneNumberIdOf value) now s = .ok receipts) :
    receipts.map WhatsAppStatusReceipt.fields = [receiptFields (value, s)] := by
  obtain ⟨ms, _, hreceipts⟩ := bind_eq_ok.1 h
  obtain rfl := Except.ok.inj hreceipts
  have hreadable := hvalue.statuses s hs
  simp only [isReadableStatus, Bool.and_eq_true] at hreadable
  obtain ⟨⟨hid, hstatus⟩, hrecipient⟩ := hreadable
  refine congrArg (fun fields => [fields]) (ReceiptFields.ext ?_ ?_ ?_ ?_)
  · exact (eq_of_isText hid).symm
  · exact (eq_of_isText hstatus).symm
  · exact (eq_of_isText hrecipient).symm
  · exact (eq_of_isOptionalText hvalue.phoneNumberId).symm

theorem fields_receiptsOf {change : Json} {now : JsNumber} {receipts : List WhatsAppStatusReceipt}
    (hreadable : ∀ value ∈ (change.get (js "value")).toList, ReadableValue value)
    (h : receiptsOf now change = .ok receipts) :
    receipts.map WhatsAppStatusReceipt.fields =
      (change.get (js "value")).toList.flatMap fun value =>
        (items (value.get (js "statuses"))).map fun s => receiptFields (value, s) := by
  unfold receiptsOf at h
  split at h
  · rename_i hnone
    obtain rfl := Except.ok.inj h
    rw [hnone]
    rfl
  · rename_i value hvalue
    have hvalue' : ReadableValue value := hreadable value (by simp [hvalue])
    rw [map_collect (fun s hs _ => fields_metaStatusToReceipt hvalue' hs) h, hvalue,
      Option.toList_some, List.flatMap_singleton, List.map_eq_flatMap]

theorem normalizeStatusReceipts_isOk {envelope : MetaWebhookEnvelope} (now : JsNumber) :
    (∃ receipts, normalizeStatusReceipts envelope now = .ok receipts) ↔
      ∀ p ∈ statusesOf envelope.json, Converts (p.2.get (js "timestamp")) := by
  rw [normalizeStatusReceipts, collect_isOk]
  simp only [receiptsOf_isOk, statusesOf, valuesOf, List.mem_flatMap, List.mem_map,
    forall_exists_index, and_imp]
  grind

theorem fields_normalizeStatusReceipts {envelope : MetaWebhookEnvelope} {now : JsNumber}
    {receipts : List WhatsAppStatusReceipt}
    (h : normalizeStatusReceipts envelope now = .ok receipts) :
    receipts.map WhatsAppStatusReceipt.fields = (statusesOf envelope.json).map receiptFields := by
  rw [map_collect (fun change hchange _ => fields_receiptsOf (readableChange hchange)) h,
    statusesOf, valuesOf, List.flatMap_assoc, List.map_flatMap]
  simp [List.map_flatMap, Function.comp_def]

/-- What the normalizers are to make of an envelope: an event for each text message and a receipt
for each status, in order, whose fields are what is read and strings. -/
def Normalizes (envelope : MetaWebhookEnvelope) (now : JsNumber) : Prop :=
  (∃ events, normalizeInboundMessages envelope now = .ok events ∧
    events.map WhatsAppInboundEvent.fields = (textsOf envelope.json).map eventFields) ∧
  ∃ receipts, normalizeStatusReceipts envelope now = .ok receipts ∧
    receipts.map WhatsAppStatusReceipt.fields = (statusesOf envelope.json).map receiptFields

/-- A body that is not refused is normalized exactly when the timestamps of its text messages and
of its statuses can be converted. -/
theorem parsed_normalizes_iff (json : Json) (envelope : MetaWebhookEnvelope) (now : JsNumber)
    (hparse : parseWebhookPayload json = some envelope) :
    Normalizes envelope now ↔
      ∀ p ∈ textsOf json ++ statusesOf json, Converts (p.2.get (js "timestamp")) := by
  have hjson : envelope.json = json := by
    obtain ⟨_, hsome⟩ := Option.dite_none_right_eq_some.1 hparse
    obtain rfl := Option.some.inj hsome
    rfl
  rw [← hjson, List.forall_mem_append, ← normalizeInboundMessages_isOk now,
    ← normalizeStatusReceipts_isOk now]
  constructor
  · rintro ⟨⟨events, hevents, _⟩, receipts, hreceipts, _⟩
    exact ⟨⟨events, hevents⟩, receipts, hreceipts⟩
  · rintro ⟨⟨events, hevents⟩, receipts, hreceipts⟩
    exact ⟨⟨events, hevents, fields_normalizeInboundMessages hevents⟩, receipts, hreceipts,
      fields_normalizeStatusReceipts hreceipts⟩

/-- A body with one text message. -/
def stamped (timestamp : Json) : Json :=
  .object [(js "object", .string (js "whatsapp")), (js "entry", .array [.object
    [(js "changes", .array [.object [(js "value", .object [(js "messages", .array [.object
      [(js "type", .string (js "text")), (js "id", .string (js "m")), (js "from", .string (js "5")),
        (js "timestamp", timestamp),
        (js "text", .object [(js "body", .string (js "hi"))])]])])]])]])]

theorem parsed_normalizes_stamped :
    Normalizes ⟨stamped (.string (js "1700")), rfl⟩ 0 := by
  refine (parsed_normalizes_iff (stamped (.string (js "1700"))) _ 0 rfl).2 fun p hp => ?_
  obtain rfl := List.mem_singleton.1 hp
  rintro v hv
  obtain rfl := Option.some.inj hv
  exact ⟨_, rfl⟩

/-- A timestamp with a member called `toString` is one that `Number` throws at. -/
theorem parsed_normalize_throws :
    ¬ ∀ (json : Json) (envelope : MetaWebhookEnvelope) (now : JsNumber),
      parseWebhookPayload json = some envelope → Normalizes envelope now := by
  intro h
  obtain ⟨⟨events, hevents, _⟩, _⟩ :=
    h (stamped (.object [(js "toString", .number 1)])) ⟨_, rfl⟩ 0 rfl
  have hthrown : normalizeInboundMessages
      ⟨stamped (.object [(js "toString", .number 1)]), rfl⟩ 0 = .error Json.cannotConvert := rfl
  cases hevents.symm.trans hthrown

end TheokitGateways.WhatsApp
