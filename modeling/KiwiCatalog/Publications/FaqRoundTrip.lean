import KiwiCatalog.Publications.Accepted
import KiwiCatalog.Publications.Store

/-!
# FAQ round trip — what comes back of the questions and answers of a publication

The column is written as a list of objects and decoded as a list column, which drops objects.
-/

set_option autoImplicit false

namespace KiwiCatalog.Publications

open Db (decodeJson encodeJson conform)
open Feed (EventRow rowToEvent nowIsoText)
open IsoText (UtcClock)
open Url (Text)

/-! ## The projections of a row -/

/-- The questions and answers in the payload of an event. -/
def eventFaq (env : PublicationEnv) (e : EventRow) : List FaqItem :=
  match (rowToEvent (eventPayloads env) e).payload with
  | .object fields => (Json.field "faq" fields).elim [] (faqItems env)
  | _ => []

/-- No question is read back, whatever the column holds. -/
theorem rowToPublication_faq (env : PublicationEnv) (row : Publication) :
    (rowToPublication env row).faq = [] := by
  obtain ⟨texts, htexts⟩ := Db.decodeJson_array env.codec row.faqJson
  show faqItems env (decodeJson env.codec row.faqJson (.array [])) = []
  rw [htexts]
  apply List.filterMap_eq_nil_iff.mpr
  intro v hv
  obtain ⟨s, -, rfl⟩ := List.mem_map.mp hv
  rfl

theorem publicProjection_faq (env : PublicationEnv) (now : Text) (row : Publication) :
    (publicProjection env now (rowToPublication env row)).faq = [] := by
  show (rowToPublication env row).faq.map (FaqItem.redacted env.text) = []
  rw [rowToPublication_faq]
  rfl

theorem publicDetail_faq {env : PublicationEnv} {db : Database} {publicationId : String}
    {now : Text} {view : PublicView} (h : publicDetail env db publicationId now = some view) :
    view.faq = [] := by
  obtain ⟨p, hp, h⟩ := Option.bind_eq_some_iff.mp h
  obtain ⟨row, -, rfl⟩ := Option.map_eq_some_iff.mp hp
  split at h
  · rw [← Option.some.inj h]
    exact publicProjection_faq env now row
  · cases h

theorem ownDetail_faq {env : PublicationEnv} {db : Database} {publicationId merchantId : String}
    {now : Text} {view : PublicView}
    (h : ownDetail env db publicationId merchantId now = some view) : view.faq = [] := by
  obtain ⟨p, hp, h⟩ := Option.bind_eq_some_iff.mp h
  obtain ⟨row, -, rfl⟩ := Option.map_eq_some_iff.mp hp
  split at h
  · rw [← Option.some.inj h]
    exact publicProjection_faq env now row
  · cases h

theorem searchPublications_faq {env : PublicationEnv} {db : Database} {query : SearchQuery}
    {now : Text} {view : PublicView} (h : view ∈ (searchPublications env db query now).1) :
    view.faq = [] := by
  obtain ⟨p, hp, rfl⟩ := List.mem_map.mp h
  obtain ⟨row, -, rfl⟩ := List.mem_map.mp hp
  exact publicProjection_faq env now row

/-! ## Events -/

theorem sanitizePublicFields_keys (env : PublicationEnv) (fields : List (String × Json)) :
    (sanitizePublicFields env fields).map Prod.fst = fields.map Prod.fst := by
  induction fields with
  | nil => simp [sanitizePublicFields]
  | cons kv rest ih => simp [sanitizePublicFields, ih]

/-- A list under a key stays a list under that key, item by item. -/
theorem field_sanitizePublicFields (env : PublicationEnv) {fields : List (String × Json)}
    {key : String} {items : List Json} (hkey : key ≠ "shop_url")
    (h : Json.field key fields = some (.array items)) :
    Json.field key (sanitizePublicFields env fields) =
      some (.array (sanitizePublicItems env items)) := by
  induction fields with
  | nil => cases h
  | cons kv rest ih =>
    obtain ⟨k, v⟩ := kv
    change (if k = key then some v else Json.field key rest) = _ at h
    split at h
    · rename_i hk
      obtain rfl := Option.some.inj h
      rw [sanitizePublicFields]
      · show (if k = key then _ else _) = _
        rw [if_pos hk, if_neg (hk ▸ hkey)]
        simp only [sanitizePublicPayload]
      · intro s htext
        cases htext
    · rename_i hk
      obtain ⟨cleaned, hcons⟩ := sanitizePublicFields_cons env k v rest
      rw [hcons]
      show (if k = key then some cleaned else _) = _
      rw [if_neg hk]
      exact ih h

theorem eventFaq_of_empty {env : PublicationEnv} {e : EventRow} {fields : List (String × Json)}
    (hkeys : (fields.map Prod.fst).Nodup) (hfaq : Json.field "faq" fields = some (.array []))
    (hpayload : e.payloadJson =
      String.ofList (encodeJson env.codec (sanitizePublicPayload env (.object fields))))
    (hcodec : env.codec.RoundTrips (sanitizePublicPayload env (.object fields))) :
    eventFaq env e = [] := by
  have hstored := field_sanitizePublicFields env (by decide) hfaq
  have hkeys' : ((sanitizePublicFields env fields).map Prod.fst).Nodup := by
    rw [sanitizePublicFields_keys]
    exact hkeys
  have hsorted := Json.field_sortKeys hkeys' hstored
  have hread : (rowToEvent (eventPayloads env) e).payload =
      .object (sanitizePublicFields env
        ((Json.sortKeysFields (sanitizePublicFields env fields)).mergeSort Json.keyOrder)) := by
    show sanitizePublicPayload env (decodeJson env.codec e.payloadJson.toList (.object [])) = _
    rw [hpayload, String.toList_ofList, Db.decodeJson_encodeJson hcodec]
    simp [sanitizePublicPayload, Json.sortKeys, conform]
  have hfinal := field_sanitizePublicFields env (by decide) hsorted
  unfold eventFaq
  rw [hread]
  simp only
  rw [hfinal]
  simp [sanitizePublicItems, Json.sortKeysItems, faqItems]

/-! ## The round trip -/

/-- What a reader of a saved row gets of the questions and answers of its payload. -/
structure FaqRoundTrips (env : PublicationEnv) (db : Database) (row : Publication) (c : Canonical)
    (action : Action) : Prop where
  merchantView : (rowToPublication env row).faq = c.faq.map (FaqItem.redacted env.text)
  ownDetail : ∀ now, ∃ view, ownDetail env db row.publicationId row.merchantId now = some view ∧
    view.faq = c.faq.map (FaqItem.redacted env.text)
  publicDetail : ∀ now, isPublic now row = true →
    ∃ view, publicDetail env db row.publicationId now = some view ∧
      view.faq = c.faq.map (FaqItem.redacted env.text)
  search : ∀ query now, ∀ view ∈ (searchPublications env db query now).1,
    view.publicationId = row.publicationId → view.faq = c.faq.map (FaqItem.redacted env.text)
  event : action = .publish → ∃ e, db.events.getLast? = some e ∧
    eventFaq env e = c.faq.map (FaqItem.redacted env.text)
  -- the value read back is saved as the same column
  resave : encodeJson env.codec (faqJson (rowToPublication env row).faq) = row.faqJson

theorem ownDetail_of_getRow (env : PublicationEnv) {db : Database} {row : Publication}
    (h : getRow db row.publicationId = some row) (now : Text) :
    ∃ view, ownDetail env db row.publicationId row.merchantId now = some view := by
  unfold ownDetail
  rw [h, Option.map_some, Option.bind_some]
  refine ⟨_, if_pos ?_⟩
  simp [rowToPublication]

theorem publicDetail_of_getRow (env : PublicationEnv) {db : Database} {row : Publication}
    {now : Text} (h : getRow db row.publicationId = some row) (hpublic : isPublic now row = true) :
    ∃ view, publicDetail env db row.publicationId now = some view := by
  unfold publicDetail
  rw [h, Option.map_some, Option.bind_some]
  exact ⟨_, if_pos hpublic⟩

theorem eventFaq_of_payload {env : PublicationEnv} {e : EventRow} {now : UtcClock}
    {row : Publication}
    (hpayload : e.payloadJson = String.ofList (encodeJson env.codec (eventPayload env now row)))
    (hcodec : env.codec.RoundTrips (eventPayload env now row)) : eventFaq env e = [] := by
  refine eventFaq_of_empty ?_ ?_ hpayload hcodec
  · simp only [List.map_cons, List.map_nil]
    decide
  · show some (faqJson (publicProjection env (nowIsoText now) (rowToPublication env row)).faq) = _
    rw [publicProjection_faq]
    rfl

/-- The questions and answers come back exactly when there are none; redaction would have kept
them. -/
theorem faq_round_trips_iff {env : PublicationEnv} {payload : List (String × Json)} {c : Canonical}
    {action : Action} {db db' : Database} {merchantId publicationId eventId : String}
    {now : UtcClock} {row : Publication} (haccept : acceptPayload env payload = .ok (c, action))
    (hsaved : upsertPublication env db merchantId c action publicationId eventId now =
      some (db', row))
    (hcodec : env.codec.RoundTrips (eventPayload env now row)) :
    (FaqRoundTrips env db' row c action ↔ c.faq = []) ∧
      c.faq.map (FaqItem.redacted env.text) = c.faq := by
  refine ⟨⟨fun h => ?_, fun hempty => ?_⟩, redacted_of_accepted haccept⟩
  · have hview := h.merchantView
    rw [rowToPublication_faq] at hview
    exact List.map_eq_nil_iff.mp hview.symm
  · obtain ⟨hrow, hcolumn, hlast⟩ := upsertPublication_some hsaved
    have hnone : c.faq.map (FaqItem.redacted env.text) = [] := by rw [hempty]; rfl
    constructor
    · rw [rowToPublication_faq, hnone]
    · intro t
      obtain ⟨view, hview⟩ := ownDetail_of_getRow env hrow t
      exact ⟨view, hview, by rw [ownDetail_faq hview, hnone]⟩
    · intro t hpublic
      obtain ⟨view, hview⟩ := publicDetail_of_getRow env hrow hpublic
      exact ⟨view, hview, by rw [publicDetail_faq hview, hnone]⟩
    · intro query t view hview _
      rw [searchPublications_faq hview, hnone]
    · intro hpublish
      obtain ⟨e, he, hpayload⟩ := hlast hpublish
      exact ⟨e, he, by rw [eventFaq_of_payload hpayload hcodec, hnone]⟩
    · rw [rowToPublication_faq, hcolumn, hempty]

/-! ## Two payloads -/

def sparesText : Text :=
  '[' :: "\x7b\"answer\": \"Yes\", \"question\": \"Spares?\"\x7d]".toList

def pumpEventText : Text :=
  '\x7b' :: ("\"category\": \"\", \"expires_at\": \"\", \"faq\": [], " ++
    "\"inquiry_available\": false, \"merchant_display_name\": \"Kiwi\", " ++
    "\"merchant_id\": \"m1\", \"public_home_url\": \"\", \"publication_id\": \"p1\", " ++
    "\"published_at\": \"0001-01-01T00:00:00+00:00\", \"shop_platform\": \"\", " ++
    "\"shop_url\": \"\", \"source_kind\": \"merchant_declared\", " ++
    "\"status\": \"published\", \"summary\": \"\", \"title\": \"Pump\", " ++
    "\"updated_at\": \"0001-01-01T00:00:00+00:00\", \"version\": 1\x7d").toList

def sparesQuestion : FaqItem := ⟨"Spares?".toList, "Yes".toList⟩

/-- Python's JSON of the columns and of the event below. -/
def pumpCodec (event : Json) : Json.Codec where
  dumps
    | .array [] => ['[', ']']
    | .array _ => sparesText
    | _ => pumpEventText
  loads text :=
    if text = ['[', ']'] then some (.array [])
    else if text = sparesText then some (faqJson [sparesQuestion]).sortKeys
    else some event.sortKeys

def plainEnv (event : Json) : PublicationEnv where
  text := asciiEnv
  codec := pumpCodec event
  repr := fun _ => []
  normalizeExpiresAt := .ok
  publicMerchantHomeUrl := fun _ => []

def pump (faq : List FaqItem) : Canonical where
  merchantDisplayName := "Kiwi".toList
  title := "Pump".toList
  category := []
  shopPlatform := []
  summary := []
  shopUrl := []
  faq := faq
  expiresAt := []

def pumpPayload (faq : List FaqItem) : List (String × Json) :=
  [("merchant_display_name", .text "Kiwi".toList), ("title", .text "Pump".toList),
    ("faq", faqJson faq), ("action", .text "publish".toList)]

def pumpRow (faq : List FaqItem) : Publication :=
  newRow (plainEnv .null) "p1" "m1" (pump faq) .publish firstClock

def pumpEvent : Json := eventPayload (plainEnv .null) firstClock (pumpRow [])

/-- The first publication of a directory is saved. -/
theorem upsertPublication_first (env : PublicationEnv) (merchantId publicationId eventId : String)
    (c : Canonical) (now : UtcClock) :
    ∃ db', upsertPublication env ⟨[], []⟩ merchantId c .publish publicationId eventId now =
      some (db', newRow env publicationId merchantId c .publish now) := by
  unfold upsertPublication findByMerchantTitle
  simp only [List.filter_nil, List.mergeSort_nil, List.head?_nil]
  exact ⟨_, rfl⟩

theorem plainEnv_roundTrips (faq : List FaqItem) (hfaq : faq = [] ∨ faq = [sparesQuestion]) :
    (plainEnv pumpEvent).codec.RoundTrips
      (eventPayload (plainEnv pumpEvent) firstClock (pumpRow faq)) := by
  have hevent : eventPayload (plainEnv pumpEvent) firstClock (pumpRow faq) = pumpEvent := by
    rcases hfaq with rfl | rfl <;> rfl
  have hdumps : (pumpCodec pumpEvent).dumps pumpEvent = pumpEventText := rfl
  have hcolumn : pumpEventText ≠ ['[', ']'] := fun h =>
    absurd (List.head_eq_of_cons_eq h) (by decide)
  have hspares : pumpEventText ≠ sparesText := fun h =>
    absurd (List.head_eq_of_cons_eq h) (by decide)
  have hloads : (pumpCodec pumpEvent).loads pumpEventText = some pumpEvent.sortKeys := by
    unfold pumpCodec
    simp only
    rw [if_neg hcolumn, if_neg hspares]
  rw [hevent]
  refine ⟨?_, ?_⟩
  · exact (congrArg _ hdumps).trans hloads
  · exact fun h => absurd (hdumps.symm.trans h) (List.cons_ne_nil _ _)

theorem faq_round_trips_iff_without_questions :
    ∃ db', FaqRoundTrips (plainEnv pumpEvent) db' (pumpRow []) (pump []) .publish := by
  obtain ⟨db', hsaved⟩ := upsertPublication_first (plainEnv pumpEvent) "m1" "p1" "e1" (pump [])
    firstClock
  have haccept : acceptPayload (plainEnv pumpEvent) (pumpPayload []) = .ok (pump [], .publish) :=
    rfl
  exact ⟨db', (faq_round_trips_iff haccept hsaved (plainEnv_roundTrips [] (.inl rfl))).1.mpr rfl⟩

/-- One question is accepted and saved, and no reader gets it. -/
theorem question_lost :
    acceptPayload (plainEnv pumpEvent) (pumpPayload [sparesQuestion]) =
        .ok (pump [sparesQuestion], .publish) ∧
      ∃ db', upsertPublication (plainEnv pumpEvent) ⟨[], []⟩ "m1" (pump [sparesQuestion]) .publish
          "p1" "e1" firstClock = some (db', pumpRow [sparesQuestion]) ∧
        (plainEnv pumpEvent).codec.RoundTrips
          (eventPayload (plainEnv pumpEvent) firstClock (pumpRow [sparesQuestion])) ∧
        ¬ FaqRoundTrips (plainEnv pumpEvent) db' (pumpRow [sparesQuestion]) (pump [sparesQuestion])
          .publish := by
  obtain ⟨db', hsaved⟩ := upsertPublication_first (plainEnv pumpEvent) "m1" "p1" "e1"
    (pump [sparesQuestion]) firstClock
  refine ⟨rfl, db', hsaved, plainEnv_roundTrips _ (.inr rfl), ?_⟩
  intro h
  have hview := h.merchantView
  rw [rowToPublication_faq] at hview
  cases hview

end KiwiCatalog.Publications
