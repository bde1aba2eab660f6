import GraphRefly.Messaging.Bus

/-!
# Deliveries in the Text of an Issue

A recipe that lowers bus messages to commands reports a message it cannot lower
as an issue, and the coordinates of the message travel in the text of the issue.
The node that acknowledges messages reads them back from there.

The text is a list of fields, each a name and a value, with semicolons between
them. Nothing is escaped. A value may hold any character, also a semicolon, and
then the reader takes what is behind it for a field of its own: it finds no
field there and gives up, or it finds one that takes the place of another.

## Main definitions

* `MessageBusDelivery`: The coordinates of a delivered message.
* `deliveryDetails`, `parseDeliveryDetails`: Writing them, and reading them.
* `LoweringRecipe`: What the two recipes differ in.
* `issueAck`: The command that acknowledges the message of an issue.

## Theorems

* `parseDeliveryDetails_iff`: Which coordinates are read back.
* `issue_acked_iff`: The messages whose issues are acknowledged as they should be.
-/

namespace GraphRefly.Messaging

open List

/-! ### Coordinates -/

structure MessageBusDelivery where
  topic : String
  seq : Nat
  subscriptionId : String
  commandId : String
deriving DecidableEq

/-- The number is one that a counter of the bus can hold. -/
def MessageBusDelivery.Sized (delivery : MessageBusDelivery) : Prop := delivery.seq < 2 ^ 64

/-- The fields, each with its name, and semicolons between them. -/
def deliveryDetails (delivery : MessageBusDelivery) : String :=
  "messageBus:" ++ ";".intercalate
    ["topic=" ++ delivery.topic, "subscription_id=" ++ delivery.subscriptionId,
      "seq=" ++ toString delivery.seq, "command_id=" ++ delivery.commandId]

/-! ### Reading -/

/-- A word that has to stand in front, and what is behind it. -/
def stripWord (word text : List Char) : Option (List Char) :=
  if word.isPrefixOf text then some (text.drop word.length) else none

/-- What is before and behind the first separator. -/
def splitOnce (separator : Char) : List Char → Option (List Char × List Char)
  | [] => none
  | c :: text =>
    if c = separator then some ([], text)
    else (splitOnce separator text).map fun split => (c :: split.1, split.2)

/-- A number of 64 bits in decimal; a plus sign may stand in front. -/
def parseU64 (text : List Char) : Option Nat :=
  let digits := if text.head? = some '+' then text.tail else text
  if digits ≠ [] ∧ digits.all Char.isDigit = true ∧ Nat.ofDigitChars 10 digits 0 < 2 ^ 64 then
    some (Nat.ofDigitChars 10 digits 0)
  else none

/-- The fields read so far. -/
structure DeliveryFields where
  topic : Option String := none
  subscriptionId : Option String := none
  seq : Option Nat := none
  commandId : Option String := none

section

variable (fields : DeliveryFields)

/-- Keep the value of a field. One that was there is replaced, and a name that is not known is
    passed over. -/
def DeliveryFields.set (key value : List Char) : DeliveryFields :=
  if key = "topic".toList then { fields with topic := some (String.ofList value) }
  else if key = "subscription_id".toList then
    { fields with subscriptionId := some (String.ofList value) }
  else if key = "seq".toList then { fields with seq := parseU64 value }
  else if key = "command_id".toList then { fields with commandId := some (String.ofList value) }
  else fields

/-- Read one field. -/
def DeliveryFields.read (part : List Char) : Option DeliveryFields :=
  (splitOnce '=' part).map fun field => fields.set field.1 field.2

def DeliveryFields.delivery : Option MessageBusDelivery := do
  let topic ← fields.topic
  let subscriptionId ← fields.subscriptionId
  let seq ← fields.seq
  let commandId ← fields.commandId
  return { topic, seq, subscriptionId, commandId }

end

def parseDeliveryDetails (details : String) : Option MessageBusDelivery := do
  let rest ← stripWord "messageBus:".toList details.toList
  let fields ← (rest.splitOn ';').foldlM DeliveryFields.read {}
  fields.delivery

/-! ### Issues and acknowledgements -/

/-- What the recipes for commands and for processes differ in. -/
structure LoweringRecipe where
  issueCode : String
  issueMessage : String
  issueSource : String
  ackLabel : String

def cqrsLowering : LoweringRecipe :=
  { issueCode := "cqrs-message-lowering-rejected"
    issueMessage := "CQRS messaging recipe could not lower retained message to a command fact"
    issueSource := "cqrs.messaging"
    ackLabel := "cqrs-message-ack" }

def processLowering : LoweringRecipe :=
  { issueCode := "process-message-lowering-rejected"
    issueMessage := "Process messaging recipe could not lower retained message to a command fact"
    issueSource := "process.messaging"
    ackLabel := "process-message-ack" }

/-- The issue of a message that a recipe cannot lower. -/
def LoweringRecipe.messageIssue (recipe : LoweringRecipe) (delivery : MessageBusDelivery) :
    DataIssue :=
  { kind := "issue"
    code := recipe.issueCode
    message := recipe.issueMessage
    severity := "error"
    source := recipe.issueSource
    topic := some delivery.topic
    details := some (deliveryDetails delivery) }

def issueDelivery (issue : DataIssue) : Option MessageBusDelivery :=
  issue.details.bind parseDeliveryDetails

/-- The id of an acknowledgement. -/
def LoweringRecipe.ackId (recipe : LoweringRecipe) (delivery : MessageBusDelivery)
    (reason : String) : String :=
  Json.compoundTupleKey recipe.ackLabel
    [delivery.topic, delivery.subscriptionId, toString delivery.seq, reason]

def ackCommand {T : Type} (delivery : MessageBusDelivery) (commandId : String) :
    MessageBusCommand T :=
  .ack delivery.topic delivery.subscriptionId delivery.seq (some commandId)

/-- The command that acknowledges the message of an issue, if its coordinates can be read. -/
def LoweringRecipe.issueAck {T : Type} (recipe : LoweringRecipe) (issue : DataIssue) :
    Option (MessageBusCommand T) :=
  (issueDelivery issue).map fun delivery =>
    ackCommand delivery (recipe.ackId delivery "issue-ack")

/-! ### Fields -/

variable {separator : Char} {key : List Char}

theorem splitOnce_append (hkey : separator ∉ key)
    (value : List Char) : splitOnce separator (key ++ separator :: value) = some (key, value) := by
  induction key with
  | nil => rw [nil_append, splitOnce, if_pos rfl]
  | cons c key ih =>
    have hc : c ≠ separator := fun heq => hkey (heq ▸ mem_cons_self)
    rw [cons_append, splitOnce, if_neg hc, ih fun hmem => hkey (mem_cons_of_mem c hmem),
      Option.map_some]

theorem splitOnce_subset {text value : List Char}
    (h : splitOnce separator text = some (key, value)) : value ⊆ text := by
  induction text generalizing key with
  | nil => exact absurd h (by simp [splitOnce])
  | cons c text ih =>
    rw [splitOnce] at h
    split_ifs at h with hc
    · have heq := (Prod.mk.inj (Option.some.inj h)).2
      rw [← heq]
      exact subset_cons_self c text
    · obtain ⟨⟨front, back⟩, hsplit, heq⟩ := Option.map_eq_some_iff.mp h
      obtain ⟨_, rfl⟩ := Prod.mk.inj heq
      exact subset_cons_of_subset c (ih hsplit)

theorem notMem_of_mem_splitOn {text part : List Char}
    (h : part ∈ text.splitOn separator) : separator ∉ part := by
  induction text generalizing part with
  | nil =>
    rw [splitOn_nil, mem_singleton] at h
    rw [h]
    exact not_mem_nil
  | cons c text ih =>
    rw [splitOn_cons_eq_if_modifyHead] at h
    split_ifs at h with hc
    · rcases mem_cons.mp h with rfl | hpart
      · exact not_mem_nil
      · exact ih hpart
    · -- The first part is longer by one character, which is no separator.
      obtain ⟨first, parts, hsplit⟩ := exists_cons_of_ne_nil (splitOn_ne_nil separator
        text)
      rw [hsplit, modifyHead_cons] at h
      rcases mem_cons.mp h with rfl | hpart
      · have hfirst := ih (hsplit ▸ mem_cons_self)
        have hne : separator ≠ c := fun heq => hc (by simp [heq])
        exact not_mem_cons_of_ne_of_not_mem hne hfirst
      · exact ih (hsplit ▸ mem_cons_of_mem first hpart)

theorem parseU64_toString {n : Nat} (h : n < 2 ^ 64) :
    parseU64 (toString n).toList = some n := by
  have hdigits : (toString n).toList = Nat.toDigits 10 n := Nat.toList_repr
  have hall : ∀ c ∈ Nat.toDigits 10 n, c.isDigit = true := fun c hc =>
    Nat.isDigit_of_mem_toDigits (by decide) (by decide) hc
  have hsign : (Nat.toDigits 10 n).head? ≠ some '+' := by
    intro hhead
    have := hall '+' (mem_of_mem_head? hhead)
    exact absurd this (by decide)
  rw [hdigits, parseU64, if_neg hsign, if_pos]
  · rw [Nat.ofDigitChars_ten_toDigits]
  · refine ⟨Nat.toDigits_ne_nil, all_eq_true.mpr hall, ?_⟩
    rw [Nat.ofDigitChars_ten_toDigits]
    exact h

/-! ### What is read back -/

/-- No text holds a semicolon. -/
structure MessageBusDelivery.Plain (delivery : MessageBusDelivery) : Prop where
  topic : ';' ∉ delivery.topic.toList
  subscriptionId : ';' ∉ delivery.subscriptionId.toList
  commandId : ';' ∉ delivery.commandId.toList

/-- No text read so far holds a semicolon. -/
structure DeliveryFields.Plain (fields : DeliveryFields) : Prop where
  topic : ∀ text, fields.topic = some text → ';' ∉ text.toList
  subscriptionId : ∀ text, fields.subscriptionId = some text → ';' ∉ text.toList
  commandId : ∀ text, fields.commandId = some text → ';' ∉ text.toList

theorem DeliveryFields.Plain.read {fields fields' : DeliveryFields} (h : fields.Plain)
    {part : List Char} (hpart : ';' ∉ part) (hread : fields.read part = some fields') :
    fields'.Plain := by
  obtain ⟨⟨key, value⟩, hsplit, rfl⟩ := Option.map_eq_some_iff.mp hread
  have hvalue : ';' ∉ (String.ofList value).toList := by
    rw [String.toList_ofList]
    exact fun hmem => hpart (splitOnce_subset hsplit hmem)
  simp only [DeliveryFields.set]
  split_ifs
  · exact ⟨fun _ heq => Option.some.inj heq ▸ hvalue, h.subscriptionId, h.commandId⟩
  · exact ⟨h.topic, fun _ heq => Option.some.inj heq ▸ hvalue, h.commandId⟩
  · exact ⟨h.topic, h.subscriptionId, h.commandId⟩
  · exact ⟨h.topic, h.subscriptionId, fun _ heq => Option.some.inj heq ▸ hvalue⟩
  · exact h

theorem DeliveryFields.Plain.fold {fields fields' : DeliveryFields} (h : fields.Plain)
    {parts : List (List Char)} (hparts : ∀ part ∈ parts, ';' ∉ part)
    (hread : parts.foldlM DeliveryFields.read fields = some fields') : fields'.Plain := by
  induction parts generalizing fields with
  | nil => exact Option.some.inj hread ▸ h
  | cons part parts ih =>
    rw [foldlM_cons] at hread
    obtain ⟨mid, hmid, hrest⟩ := Option.bind_eq_some_iff.mp hread
    exact ih (h.read (hparts part mem_cons_self) hmid)
      (fun part hmem => hparts part (mem_cons_of_mem _ hmem)) hrest

variable {delivery : MessageBusDelivery}

theorem plain_of_parse {details : String}
    (h : parseDeliveryDetails details = some delivery) : delivery.Plain := by
  obtain ⟨rest, _, hfields⟩ := Option.bind_eq_some_iff.mp h
  obtain ⟨fields, hfold, hdelivery⟩ := Option.bind_eq_some_iff.mp hfields
  have hempty : ({} : DeliveryFields).Plain :=
    ⟨fun _ h => absurd h (by simp), fun _ h => absurd h (by simp), fun _ h => absurd h (by simp)⟩
  have hplain := hempty.fold (fun _ => notMem_of_mem_splitOn) hfold
  obtain ⟨topic, htopic, hdelivery⟩ := Option.bind_eq_some_iff.mp hdelivery
  obtain ⟨subscriptionId, hsubscription, hdelivery⟩ := Option.bind_eq_some_iff.mp hdelivery
  obtain ⟨seq, _, hdelivery⟩ := Option.bind_eq_some_iff.mp hdelivery
  obtain ⟨commandId, hcommand, hdelivery⟩ := Option.bind_eq_some_iff.mp hdelivery
  rw [← Option.some.inj hdelivery]
  exact ⟨hplain.topic topic htopic, hplain.subscriptionId subscriptionId hsubscription,
    hplain.commandId commandId hcommand⟩

theorem digits_plain (n : Nat) : ';' ∉ (toString n).toList := by
  intro hmem
  have hdigit : (';' : Char).isDigit = true :=
    Nat.isDigit_of_mem_toDigits (by decide) (by decide) (Nat.toList_repr ▸ hmem)
  exact absurd hdigit (by decide)

section

variable (fields : DeliveryFields)

theorem DeliveryFields.read_field (hkey : '=' ∉ key)
    (value : List Char) : fields.read (key ++ '=' :: value) = some (fields.set key value) := by
  rw [DeliveryFields.read, splitOnce_append hkey, Option.map_some]

/-- The fields of some coordinates. -/
def MessageBusDelivery.parts (delivery : MessageBusDelivery) : List (List Char) :=
  ["topic".toList ++ '=' :: delivery.topic.toList,
    "subscription_id".toList ++ '=' :: delivery.subscriptionId.toList,
    "seq".toList ++ '=' :: (toString delivery.seq).toList,
    "command_id".toList ++ '=' :: delivery.commandId.toList]

theorem deliveryDetails_toList (delivery : MessageBusDelivery) :
    (deliveryDetails delivery).toList =
      "messageBus:".toList ++ [';'].intercalate delivery.parts := by
  rw [deliveryDetails, String.toList_append, String.toList_intercalate]
  simp [MessageBusDelivery.parts]

@[simp] theorem DeliveryFields.set_topic (value : List Char) :
    fields.set "topic".toList value = { fields with topic := some (String.ofList value) } :=
  if_pos rfl

@[simp] theorem DeliveryFields.set_subscriptionId (value : List Char) :
    fields.set "subscription_id".toList value =
      { fields with subscriptionId := some (String.ofList value) } := by
  rw [DeliveryFields.set, if_neg (by simp), if_pos rfl]

@[simp] theorem DeliveryFields.set_seq (value : List Char) :
    fields.set "seq".toList value = { fields with seq := parseU64 value } := by
  rw [DeliveryFields.set, if_neg (by simp), if_neg (by simp), if_pos rfl]

@[simp] theorem DeliveryFields.set_commandId (value : List Char) :
    fields.set "command_id".toList value =
      { fields with commandId := some (String.ofList value) } := by
  rw [DeliveryFields.set, if_neg (by simp), if_neg (by simp), if_neg (by simp), if_pos rfl]

end

theorem foldlM_parts (hsized : delivery.Sized) :
    delivery.parts.foldlM DeliveryFields.read {} = some
      { topic := some delivery.topic
        subscriptionId := some delivery.subscriptionId
        seq := some delivery.seq
        commandId := some delivery.commandId } := by
  have htopic : '=' ∉ "topic".toList := by simp
  have hsubscription : '=' ∉ "subscription_id".toList := by simp
  have hseq : '=' ∉ "seq".toList := by simp
  have hcommand : '=' ∉ "command_id".toList := by simp
  simp only [MessageBusDelivery.parts, foldlM_cons, foldlM_nil,
    DeliveryFields.read_field _ htopic, DeliveryFields.read_field _ hsubscription,
    DeliveryFields.read_field _ hseq, DeliveryFields.read_field _ hcommand, Option.bind_eq_bind,
    Option.bind_some, DeliveryFields.set_topic, DeliveryFields.set_subscriptionId,
    DeliveryFields.set_seq, DeliveryFields.set_commandId, parseU64_toString hsized,
    String.ofList_toList]
  rfl

theorem parse_deliveryDetails (hsized : delivery.Sized) (hplain : delivery.Plain) :
    parseDeliveryDetails (deliveryDetails delivery) = some delivery := by
  have hparts : ∀ part ∈ delivery.parts, ';' ∉ part := by
    have htopic := hplain.topic
    have hsubscription := hplain.subscriptionId
    have hcommand := hplain.commandId
    have hdigits := digits_plain delivery.seq
    simp [MessageBusDelivery.parts] at hdigits ⊢
    exact ⟨htopic, hsubscription, hdigits, hcommand⟩
  rw [parseDeliveryDetails, deliveryDetails_toList, stripWord,
    if_pos (List.isPrefixOf_iff_prefix.mpr (prefix_append _ _)), drop_left,
    Option.bind_eq_bind, Option.bind_some,
    splitOn_intercalate ';' hparts (cons_ne_nil _ _), foldlM_parts hsized]
  rfl

/-- Exactly the coordinates without a semicolon are read back. -/
theorem parseDeliveryDetails_iff (hsized : delivery.Sized) :
    parseDeliveryDetails (deliveryDetails delivery) = some delivery ↔ delivery.Plain :=
  ⟨plain_of_parse, parse_deliveryDetails hsized⟩

theorem count_semicolons (delivery : MessageBusDelivery) :
    (deliveryDetails delivery).toList.count ';' = 3 + delivery.topic.toList.count ';' +
      delivery.subscriptionId.toList.count ';' + delivery.commandId.toList.count ';' := by
  have hdigits : (toString delivery.seq).toList.count ';' = 0 :=
    count_eq_zero.mpr (digits_plain delivery.seq)
  rw [deliveryDetails_toList]
  simp [MessageBusDelivery.parts, List.intercalate_cons_cons] at hdigits ⊢
  omega

theorem plain_iff_count (delivery : MessageBusDelivery) :
    delivery.Plain ↔ (deliveryDetails delivery).toList.count ';' = 3 := by
  rw [count_semicolons]
  constructor
  · intro h
    have htopic := count_eq_zero.mpr h.topic
    have hsubscription := count_eq_zero.mpr h.subscriptionId
    have hcommand := count_eq_zero.mpr h.commandId
    omega
  · intro h
    exact ⟨count_eq_zero.mp (by omega), count_eq_zero.mp (by omega),
      count_eq_zero.mp (by omega)⟩

theorem deliveryDetails_injective {other : MessageBusDelivery} (hsized : delivery.Sized)
    (hsized' : other.Sized) (hplain : delivery.Plain)
    (h : deliveryDetails other = deliveryDetails delivery) : other = delivery := by
  have hplain' : other.Plain := by
    rw [plain_iff_count] at hplain ⊢
    rw [h]
    exact hplain
  have hread := parse_deliveryDetails hsized' hplain'
  rw [h, parse_deliveryDetails hsized hplain] at hread
  exact (Option.some.inj hread).symm

/-! ### Acknowledgements -/

/-- The coordinates of a message survive the text of its issue: they are read back, no other
    message has that text, and whichever recipe reports the issue, the command that answers
    it acknowledges just this message. -/
structure MessageBusDelivery.Survives (delivery : MessageBusDelivery) : Prop where
  read : parseDeliveryDetails (deliveryDetails delivery) = some delivery
  alone : ∀ other : MessageBusDelivery, other.Sized →
    deliveryDetails other = deliveryDetails delivery → other = delivery
  acked : ∀ recipe ∈ [cqrsLowering, processLowering], ∀ T : Type,
    recipe.issueAck (recipe.messageIssue delivery) =
      some (.ack delivery.topic delivery.subscriptionId delivery.seq
        (some (recipe.ackId delivery "issue-ack")) : MessageBusCommand T)

/-- The coordinates of a message survive exactly if its topic, its subscription and its command
    id hold no semicolon. -/
theorem issue_acked_iff {delivery : MessageBusDelivery} (hsized : delivery.Sized) :
    delivery.Survives ↔ delivery.Plain := by
  refine ⟨fun h => plain_of_parse h.read, fun hplain => ⟨parse_deliveryDetails hsized hplain,
    fun other hother heq => deliveryDetails_injective hsized hother hplain heq,
    fun recipe _ T => ?_⟩⟩
  rw [LoweringRecipe.issueAck, issueDelivery, LoweringRecipe.messageIssue, Option.bind_some,
    parse_deliveryDetails hsized hplain, Option.map_some]
  rfl

/-- A message under a command id of the usual kind. -/
def thirdOrder : MessageBusDelivery :=
  { topic := "orders", seq := 3, subscriptionId := "workers", commandId := "place-3" }

theorem issue_acked_iff_thirdOrder : thirdOrder.Survives ↔ thirdOrder.Plain :=
  issue_acked_iff (by decide +kernel : thirdOrder.seq < 2 ^ 64)

/-- The publisher of a message chooses its command id, and with it the message that the issue
    acknowledges. -/
theorem command_id_names_another_message :
    let delivery := { thirdOrder with commandId := "place-3;seq=9" }
    delivery.Sized ∧ ¬ delivery.Survives ∧
      parseDeliveryDetails (deliveryDetails delivery) = some { thirdOrder with seq := 9 } := by
  have hread : parseDeliveryDetails (deliveryDetails
      { thirdOrder with commandId := "place-3;seq=9" }) = some { thirdOrder with seq := 9 } := by
    decide +kernel
  have hsized : (3 : Nat) < 2 ^ 64 := by decide
  refine ⟨hsized, fun h => ?_, hread⟩
  have heq := Option.some.inj (hread.symm.trans h.read)
  exact absurd (congrArg MessageBusDelivery.seq heq) (by decide)

end GraphRefly.Messaging
