import JobRadar.NotificationModel
import JobRadar.PerfectMatch
import JobRadar.RunEnds

namespace JobRadar

open Database Python

section Texts

variable {t t' : Text}

theorem storable_append (h : storable t) (h' : storable t') : storable (t ++ t') := by
  rw [storable, List.all_append]
  exact Bool.and_eq_true_iff.mpr ⟨h, h'⟩

theorem storable_number (n : Nat) : storable (text (toString n)) := by
  apply storable_of_ascii
  intro c hc
  obtain ⟨digit, hdigit, rfl⟩ := List.mem_map.mp hc
  have hmem : digit ∈ Nat.toDigits 10 n := by simpa using hdigit
  have hrange := Nat.isDigit_of_mem_toDigits (by decide) (by decide) hmem
  simp only [Char.isDigit, Bool.and_eq_true, decide_eq_true_iff] at hrange
  obtain ⟨hlow, hhigh⟩ := hrange
  have hlow' : 48 ≤ digit.toNat := hlow
  have hhigh' : digit.toNat ≤ 57 := hhigh
  omega

end Texts

/-- `type(value).__name__`. -/
def typeName : Json → Text
  | .null => text "NoneType"
  | .bool _ => text "bool"
  | .int _ => text "int"
  | .float _ => text "float"
  | .str _ => text "str"
  | .arr _ => text "list"
  | .obj _ => text "dict"

theorem typeName_storable (value : Json) : storable (typeName value) := by
  cases value <;> rfl

/-- The text of an exception, which a `TEXT` column can hold. -/
structure ErrorText where
  text : Text
  storable : storable text

/-- What a delivery through Telegram can raise. An `HTTPStatusError` has its code at
`response.status_code`. -/
inductive TelegramErrorKind
  | valueError
  | typeError
  | attributeError
  | timeoutException
  | connectError
  | otherHttpxError
  | httpStatusError (statusCode : Nat)
  deriving DecidableEq

structure TelegramError where
  kind : TelegramErrorKind
  message : ErrorText

/-- The attributes that `is_retryable` looks for are not those of the errors: none has a
`retryable` or a `status_code` of its own, and the errors of httpx are no built-in
`TimeoutError` or `ConnectionError`. -/
def TelegramError.seen (error : TelegramError) : ProviderError where
  message := error.message.text

/-- The request timed out, did not connect, or was answered with 429 or a status of 500 and
above. -/
def TelegramErrorKind.Transient : TelegramErrorKind → Prop
  | .timeoutException | .connectError => True
  | .httpStatusError statusCode => statusCode = 429 ∨ 500 ≤ statusCode
  | .valueError | .typeError | .attributeError | .otherHttpxError => False

instance (kind : TelegramErrorKind) : Decidable kind.Transient := by
  unfold TelegramErrorKind.Transient
  split <;> infer_instance

/-- What comes of the POST request: an exception of httpx, or a response, with the text that
`raise_for_status` has for its status and what `json` makes of its body. -/
inductive TelegramAnswer
  | timedOut (message : ErrorText)
  | notConnected (message : ErrorText)
  | failed (message : ErrorText)
  | response (statusCode : Nat) (statusMessage : ErrorText) (body : Except ErrorText Json)

structure NotificationMessage where
  subject : Text
  body : Text

section Render

/-- `", ".join(parts)`. -/
def joinCommas (parts : List Text) : Text := (parts.intersperse (text ", ")).flatten

/-- What `join` raises for its first item that is not a string. -/
def joinError (items : List Json) : ErrorText where
  text := text "sequence item " ++ text (toString (items.findIdx fun item => item.asStr.isNone)) ++
    text ": expected str instance, " ++
    ((items.find? fun item => item.asStr.isNone).elim [] typeName ++ text " found")
  storable := by
    have htype : ∀ item : Option Json, storable (item.elim [] typeName) := by
      intro item
      cases item with
      | none => decide
      | some item => exact typeName_storable item
    exact storable_append
      (storable_append (storable_append (by decide) (storable_number _)) (by decide))
      (storable_append (htype _) (by decide))

def joinOrNone (parts : List Text) : Text :=
  if joinCommas parts = [] then text "none" else joinCommas parts

def renderMatch (workMode : Text) (job : Job) (m : MatchResult) :
    Except TelegramError NotificationMessage :=
  match job.locations.mapM Json.asStr with
  | none => .error ⟨.typeError, joinError job.locations⟩
  | some locations =>
    let score := text (toString m.score)
    .ok {
      subject := text "Job match: " ++ job.title ++ text " at " ++ job.companyName ++ text " (" ++
        score ++ text "/100)"
      body := text "Score: " ++ score ++ text "/100\nTitle: " ++ job.title ++
        text "\nCompany: " ++ job.companyName ++ text "\nLocation: " ++ joinCommas locations ++
        text "\nWork mode: " ++ workMode ++ text "\nMatched: " ++ joinOrNone m.matchedCriteria ++
        text "\nMissing: " ++ joinOrNone m.missingCriteria ++
        text "\nConcerns: " ++ joinOrNone m.concerns ++ text "\nApply: " ++ job.applicationUrl }

end Render

structure TelegramProvider where
  token : Text
  chatId : Text

namespace TelegramProvider

variable (lib : Stdlib) (p : TelegramProvider)

def url : Text := text "https://api.telegram.org/bot" ++ p.token ++ text "/sendMessage"

def payload (message : NotificationMessage) : Json :=
  .obj [(text "chat_id", .str p.chatId), (text "text", .str message.body)]

def noAttribute (value : Json) : ErrorText where
  text := text "'" ++ typeName value ++ text "' object has no attribute 'get'"
  storable := storable_append (storable_append (by decide) (typeName_storable value)) (by decide)

/-- `value.get(key, default)`. -/
def get (value : Json) (key : String) (default : Json) : Except TelegramError Json :=
  match value with
  | .obj fields => .ok (Dict.getD fields key default)
  | value => .error ⟨.attributeError, noAttribute value⟩

/-- The id of the message, of a response that is no error. -/
def messageId (body : Except ErrorText Json) : Except TelegramError Text :=
  match body with
  | .error message => .error ⟨.valueError, message⟩
  | .ok payload => do
    let result ← get payload "result" (.obj [])
    let messageId ← get result "message_id" (.str (text "unknown"))
    return lib.str messageId

/-- `send`, through a client that answers the payloads posted to each URL. -/
def send (client : Text → Json → TelegramAnswer) (message : NotificationMessage) :
    Except TelegramError Text :=
  if p.token = [] ∨ p.chatId = [] then
    .error ⟨.valueError, text "Telegram token and chat_id are required", by decide⟩
  else
    match client p.url (p.payload message) with
    | .timedOut message => .error ⟨.timeoutException, message⟩
    | .notConnected message => .error ⟨.connectError, message⟩
    | .failed message => .error ⟨.otherHttpxError, message⟩
    | .response statusCode statusMessage body =>
      if 200 ≤ statusCode ∧ statusCode ≤ 299 then messageId lib body
      else .error ⟨.httpStatusError statusCode, statusMessage⟩

/-- What comes of the two statements in the `try` of `deliver`. -/
def attempt (client : Text → Json → TelegramAnswer) (workMode : Text) (job : Job)
    (m : MatchResult) : Except TelegramError Text := do
  let message ← renderMatch workMode job m
  p.send lib client message

def reply : Except TelegramError Text → ProviderReply
  | .ok messageId => .sent messageId
  | .error error => .refused error.seen

end TelegramProvider

def deliverTelegram (lib : Stdlib) (p : TelegramProvider) (client : Text → Json → TelegramAnswer)
    (s : NotificationStore) (userId profileId : Uuid) (workMode : Text) (job : Job)
    (m : MatchResult) (channel : String) :
    NotificationStore × Bool × Except NotificationError (Option NotificationDelivery) :=
  deliver s ⟨userId, job.id, profileId, channel⟩ m.decision
    (TelegramProvider.reply (p.attempt lib client workMode job m))

/-- The row says `retryable` after exactly the transient errors, and `failed` after all others. -/
def ClassifiesRight (key : DeliveryKey) (attempt : Except TelegramError Text)
    (after : NotificationStore) : Prop :=
  ∃ row, after.deliveries.find key = some row ∧
    (row.status = .retryable ↔ ∃ error, attempt = .error error ∧ error.kind.Transient) ∧
    ∀ error, attempt = .error error → ¬error.kind.Transient → row.status = .failed

section Deliver

variable {s : NotificationStore} {key : DeliveryKey} {reply : ProviderReply}

def NotificationStore.rowOf (s : NotificationStore) (key : DeliveryKey) : NotificationDelivery :=
  (s.deliveries.find key).getD { toDeliveryKey := key }

def ProviderReply.apply (row : NotificationDelivery) : ProviderReply → NotificationDelivery
  | .sent messageId => row.delivered messageId
  | .refused error => row.notDelivered error

theorem written_loaded {α : Type} [DecidableEq α] (loaded held : α) :
    written loaded held loaded = held := by
  unfold written
  split
  next h => exact h.symm
  next => rfl

theorem NotificationDelivery.flush_loaded {loaded held : NotificationDelivery}
    (hkey : held.toDeliveryKey = loaded.toDeliveryKey) : loaded.flush held loaded = held := by
  cases held
  cases hkey
  simp [flush, written_loaded]

theorem NotificationDelivery.stored_key {row held : NotificationDelivery}
    (h : row.stored = some held) : held.toDeliveryKey = row.toDeliveryKey := by
  simp only [stored, Option.bind_eq_bind, Option.bind_eq_some_iff] at h
  obtain ⟨_, _, _, _, h⟩ := h
  cases h
  rfl

theorem getOrCreate_row (s : NotificationStore) (key : DeliveryKey) :
    ∃ s' created, s.getOrCreate key = .ok (s', s.rowOf key, created) ∧
      s'.deliveries.find key = some (s.rowOf key) := by
  unfold NotificationStore.getOrCreate NotificationStore.rowOf
  cases hfind : s.deliveries.find key with
  | some row => exact ⟨s, false, rfl, hfind⟩
  | none =>
    obtain ⟨deliveries, hinsert⟩ := Table.insert_isSome_of_fresh
      (r := ({ toDeliveryKey := key } : NotificationDelivery))
      (Table.find_eq_none_iff.mp hfind)
    dsimp only
    rw [hinsert]
    exact ⟨{ s with deliveries := deliveries }, true, rfl,
      (Table.find_of_insert hinsert key).trans (if_pos rfl)⟩

theorem send_spec (key : DeliveryKey) (s : NotificationStore) (row : NotificationDelivery)
    (reply : ProviderReply) :
    (s.send key row reply).1.deliveries = s.deliveries ∧
      (s.send key row reply).2 = reply.apply row := by
  cases reply with
  | sent messageId => exact ⟨rfl, rfl⟩
  | refused error => exact ⟨rfl, rfl⟩

theorem finish_find {row held : NotificationDelivery} (hrow : s.deliveries.find key = some row)
    (hkey : held.toDeliveryKey = row.toDeliveryKey) :
    (s.finish key row held).1.deliveries.find key = some (held.stored.getD row) := by
  unfold NotificationStore.finish
  cases hstored : held.stored with
  | none => exact hrow
  | some saved =>
    have hsaved : (s.save key row saved).deliveries.find key = some saved := by
      have hflush := NotificationDelivery.flush_loaded
        ((NotificationDelivery.stored_key hstored).trans hkey)
      rw [NotificationStore.save, Table.find_updateWhere, hrow, Option.map_some,
        if_pos (Table.find_eq_some_iff.mp hrow).2, hflush]
    dsimp only
    rw [hsaved]
    exact hsaved

theorem deliver_find (reply : ProviderReply) (hundelivered : s.Undelivered key) :
    (deliver s key .notify reply).1.deliveries.find key =
      some ((reply.apply (s.rowOf key)).stored.getD (s.rowOf key)) := by
  obtain ⟨s', created, hload, hrow⟩ := getOrCreate_row s key
  have hopen : ¬(created = false ∧ (s.rowOf key).status = .delivered) := by
    rintro ⟨-, hdelivered⟩
    unfold NotificationStore.rowOf at hdelivered
    cases hfind : s.deliveries.find key with
    | none =>
      rw [hfind] at hdelivered
      cases hdelivered
    | some row =>
      rw [hfind] at hdelivered
      exact hundelivered row hfind hdelivered
  obtain ⟨hkept, hheld⟩ := send_spec key s' (s.rowOf key) reply
  have hkey : (reply.apply (s.rowOf key)).toDeliveryKey = (s.rowOf key).toDeliveryKey := by
    cases reply <;> rfl
  simp only [deliver, ne_eq, not_true, if_false, hload, if_neg hopen]
  rw [hheld]
  exact finish_find (hkept ▸ hrow) hkey

end Deliver

section Columns

variable {s : NotificationStore} {key : DeliveryKey} {reply : ProviderReply}

theorem varcharColumn_stored {n : Nat} {t t' : Text} (h : varcharColumn n t = some t') :
    varcharColumn n t' = some t' := by
  unfold varcharColumn at h
  split at h
  next hfits =>
    cases h
    have hstorable : storable (t.take n) :=
      List.all_eq_true.mpr fun c hc => List.all_eq_true.mp hfits.1 c (List.mem_of_mem_take hc)
    exact varcharColumn_of_fits hstorable (List.length_take_le ..)
  next => cases h

theorem textColumn_stored {t t' : Text} (h : textColumn t = some t') : textColumn t' = some t' := by
  unfold textColumn at h
  split at h
  next hfits =>
    cases h
    exact textColumn_of_storable hfits
  next => cases h

theorem nullable_stored {column : Text → Option Text} {t t' : Option Text}
    (hcolumn : ∀ {t t' : Text}, column t = some t' → column t' = some t')
    (h : nullable column t = some t') : nullable column t' = some t' := by
  cases t with
  | none =>
    cases h
    rfl
  | some t =>
    obtain ⟨value, hvalue, rfl⟩ := Option.map_eq_some_iff.mp h
    exact congrArg (Option.map some) (hcolumn hvalue)

theorem NotificationDelivery.stored_stored {row held : NotificationDelivery}
    (h : row.stored = some held) : held.stored = some held := by
  simp only [stored, Option.bind_eq_bind, Option.bind_eq_some_iff] at h
  obtain ⟨messageId, hid, error, herror, h⟩ := h
  cases h
  simp only [stored, nullable_stored varcharColumn_stored hid,
    nullable_stored textColumn_stored herror, Option.bind_eq_bind, Option.bind_some]
  rfl

/-- Every row holds what its columns can. -/
def NotificationStore.Stored (s : NotificationStore) : Prop :=
  ∀ row ∈ s.deliveries, row.stored = some row

theorem getOrCreate_stored {s' : NotificationStore} {row : NotificationDelivery} {created : Bool}
    (hs : s.Stored) (h : s.getOrCreate key = .ok (s', row, created)) : s'.Stored := by
  unfold NotificationStore.getOrCreate at h
  split at h
  next =>
    cases h
    exact hs
  next =>
    split at h
    next => cases h
    next deliveries hinsert =>
      cases h
      intro row hrow
      rcases (Table.mem_of_insert hinsert).mp hrow with hold | rfl
      · exact hs row hold
      · rfl

theorem finish_stored {row held : NotificationDelivery} (hs : s.Stored)
    (hrow : s.deliveries.find key = some row) (hkey : held.toDeliveryKey = row.toDeliveryKey) :
    (s.finish key row held).1.Stored := by
  unfold NotificationStore.finish
  cases hstored : held.stored with
  | none => exact hs
  | some saved =>
    have hsave : (s.save key row saved).Stored := by
      intro changed hchanged
      obtain ⟨old, hold, rfl⟩ := (Table.mem_updateWhere (row.flush_key saved)).mp hchanged
      split
      next hmine =>
        have hsame : old = row := Option.some.inj
          ((Table.find_eq_some_iff.mpr ⟨hold, hmine⟩).symm.trans hrow)
        rw [hsame, NotificationDelivery.flush_loaded
          ((NotificationDelivery.stored_key hstored).trans hkey)]
        exact NotificationDelivery.stored_stored hstored
      next => exact hs old hold
    dsimp only
    split
    next => exact hsave
    next => exact hsave

theorem deliver_stored (hs : s.Stored) (decision : Decision) :
    (deliver s key decision reply).1.Stored := by
  unfold deliver
  split
  next => exact hs
  next =>
    obtain ⟨s', created, hload, hrow⟩ := getOrCreate_row s key
    have hs' := getOrCreate_stored hs hload
    rw [hload]
    dsimp only
    split
    next => exact hs'
    next =>
      obtain ⟨hkept, hheld⟩ := send_spec key s' (s.rowOf key) reply
      have hkey : (reply.apply (s.rowOf key)).toDeliveryKey = (s.rowOf key).toDeliveryKey := by
        cases reply <;> rfl
      rw [hheld]
      refine finish_stored ?_ (hkept ▸ hrow) hkey
      unfold NotificationStore.Stored
      rw [hkept]
      exact hs'

end Columns

section Classify

variable {lib : Stdlib} {p : TelegramProvider} {client : Text → Json → TelegramAnswer}
  {s : NotificationStore} {userId profileId : Uuid} {workMode : Text} {job : Job} {m : MatchResult}
  {channel : String} {row : NotificationDelivery}

theorem refused_stored (hrow : row.stored = some row) (error : TelegramError) :
    ∃ held, ((TelegramProvider.reply (.error error)).apply row).stored = some held ∧
      held.status = .failed := by
  simp only [NotificationDelivery.stored, Option.bind_eq_bind, Option.bind_eq_some_iff] at hrow
  obtain ⟨messageId, hid, _⟩ := hrow
  refine ⟨{ row.notDelivered error.seen with providerMessageId := messageId }, ?_, rfl⟩
  have htext : nullable textColumn (some error.seen.message) = some (some error.seen.message) :=
    congrArg (Option.map some) (textColumn_of_storable error.message.storable)
  simp only [NotificationDelivery.stored, TelegramProvider.reply, ProviderReply.apply,
    NotificationDelivery.notDelivered, hid, htext, Option.bind_eq_bind, Option.bind_some]
  rfl

theorem sent_stored (row : NotificationDelivery) (messageId : Text) :
    ((TelegramProvider.reply (.ok messageId)).apply row).stored =
      (varcharColumn 255 messageId).map fun id =>
        { row.delivered messageId with providerMessageId := some id } := by
  cases hid : varcharColumn 255 messageId with
  | none =>
    simp [NotificationDelivery.stored, TelegramProvider.reply, ProviderReply.apply,
      NotificationDelivery.delivered, nullable, hid]
  | some id =>
    simp [NotificationDelivery.stored, TelegramProvider.reply, ProviderReply.apply,
      NotificationDelivery.delivered, nullable, hid]

theorem classifiesRight_error {key : DeliveryKey} {error : TelegramError}
    (hfind : s.deliveries.find key = some row) (hfailed : row.status = .failed) :
    ClassifiesRight key (.error error) s ↔ ¬error.kind.Transient := by
  simp [ClassifiesRight, hfind, hfailed]

theorem classifiesRight_ok {key : DeliveryKey} {messageId : Text}
    (hfind : s.deliveries.find key = some row) :
    ClassifiesRight key (.ok messageId) s ↔ row.status ≠ .retryable := by
  simp [ClassifiesRight, hfind]

/-- A delivery that comes to `send` is classified right exactly when no transient error occurs, and
no id that the column refuses leaves a row as retryable as it was. -/
theorem telegram_classified_iff (hs : s.Stored) (hnotify : m.decision = .notify)
    (hundelivered : s.Undelivered ⟨userId, job.id, profileId, channel⟩) :
    ClassifiesRight ⟨userId, job.id, profileId, channel⟩ (p.attempt lib client workMode job m)
      (deliverTelegram lib p client s userId profileId workMode job m channel).1 ↔
    (∀ error, p.attempt lib client workMode job m = .error error → ¬error.kind.Transient) ∧
      ∀ messageId, p.attempt lib client workMode job m = .ok messageId →
        varcharColumn 255 messageId = none →
        (s.rowOf ⟨userId, job.id, profileId, channel⟩).status ≠ .retryable := by
  have hfind := deliver_find (TelegramProvider.reply (p.attempt lib client workMode job m))
    hundelivered
  have hrow : (s.rowOf ⟨userId, job.id, profileId, channel⟩).stored =
      some (s.rowOf ⟨userId, job.id, profileId, channel⟩) := by
    unfold NotificationStore.rowOf
    cases hold : s.deliveries.find ⟨userId, job.id, profileId, channel⟩ with
    | none => rfl
    | some row => exact hs row (Table.find_eq_some_iff.mp hold).1
  unfold deliverTelegram
  rw [hnotify]
  generalize s.rowOf ⟨userId, job.id, profileId, channel⟩ = row at hfind hrow ⊢
  cases hattempt : p.attempt lib client workMode job m with
  | error error =>
    obtain ⟨held, hheld, hfailed⟩ := refused_stored hrow error
    rw [hattempt, hheld, Option.getD_some] at hfind
    rw [classifiesRight_error hfind hfailed]
    simp
  | ok messageId =>
    rw [hattempt, sent_stored] at hfind
    cases hid : varcharColumn 255 messageId with
    | none =>
      rw [hid, Option.map_none, Option.getD_none] at hfind
      rw [classifiesRight_ok hfind]
      simp [hid]
    | some id =>
      rw [hid, Option.map_some, Option.getD_some] at hfind
      rw [classifiesRight_ok hfind]
      simp [hid, NotificationDelivery.delivered]

end Classify

def puneMatch : MatchResult where
  id := 31
  jobId := 1
  preferenceProfileId := 21
  jobDescriptionHash := text "a5"
  createdAt := 100
  score := 70
  confidence := 4 / 5
  decision := .notify
  componentScores := ⟨40, 0, 15, 10, 0, 5⟩
  matchedCriteria := [text "Python"]
  missingCriteria := []
  concerns := []
  reasoning := "Rule-based match evaluation"

/-- The match as it is first sent to Ann, and how Telegram answers. -/
def puneDelivery (answer : TelegramAnswer) : Except TelegramError Text × NotificationStore :=
  let provider : TelegramProvider := ⟨text "token", text "chat"⟩
  (provider.attempt emptyTextLib (fun _ _ => answer) (text "unknown") puneJob puneMatch,
    (deliverTelegram emptyTextLib provider (fun _ _ => answer) ⟨.empty, []⟩ 1 21 (text "unknown")
      puneJob puneMatch "telegram").1)

theorem puneDelivery_sent :
    ClassifiesRight ⟨1, 1, 21, "telegram"⟩
      (puneDelivery (.response 200 ⟨[], rfl⟩
        (.ok (.obj [(text "result", .obj [(text "message_id", .int 7)])])))).1
      (puneDelivery (.response 200 ⟨[], rfl⟩
        (.ok (.obj [(text "result", .obj [(text "message_id", .int 7)])])))).2 := by
  apply (telegram_classified_iff ?_ rfl ?_).mpr ⟨?_, ?_⟩
  · intro row hrow
    exact absurd hrow (Table.not_mem_empty row)
  · decide
  · intro error herror
    cases herror
  · intro messageId hid hrefused
    cases hid
    revert hrefused
    decide

/-- The service is unavailable for a moment, and the row says that the delivery has failed. -/
theorem puneDelivery_unavailable :
    ((puneDelivery (.response 503 ⟨text "Server error", by decide⟩ (.ok .null))).2.deliveries.find
      ⟨1, 1, 21, "telegram"⟩).map NotificationDelivery.status = some .failed ∧
    ¬ClassifiesRight ⟨1, 1, 21, "telegram"⟩
      (puneDelivery (.response 503 ⟨text "Server error", by decide⟩ (.ok .null))).1
      (puneDelivery (.response 503 ⟨text "Server error", by decide⟩ (.ok .null))).2 := by
  have hfailed : ((puneDelivery (.response 503 ⟨text "Server error", by decide⟩
      (.ok .null))).2.deliveries.find ⟨1, 1, 21, "telegram"⟩).map NotificationDelivery.status =
      some .failed := by
    decide
  refine ⟨hfailed, ?_⟩
  rintro ⟨row, hrow, hretryable, -⟩
  rw [hrow, Option.map_some, Option.some.injEq,
    hretryable.mpr ⟨⟨.httpStatusError 503, _⟩, rfl, Or.inr (by decide)⟩] at hfailed
  cases hfailed

end JobRadar
