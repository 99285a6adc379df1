import KiwiCatalog.Lib.Table
import KiwiCatalog.Publications.Rows

/-!
# Publication store — saving, publishing and withdrawing, and what the public reads

`merchant_publications` and `merchant_public_events`.  A draft is a row of its own, and publishing
never touches one.
-/

set_option autoImplicit false

namespace KiwiCatalog.Publications

open Db (encodeJson)
open Feed (EventRow EventType emitPublicEvent nowIsoText)
open IsoText (UtcClock)
open Url (Text)

structure Database where
  publications : List Publication
  events : List EventRow

theorem maxMicroseconds_pos : 0 < IsoText.maxMicroseconds := by decide

/-- The first instant of the clock. -/
def firstClock : UtcClock := ⟨0, maxMicroseconds_pos⟩

/-! ## 1. Writing -/

/-- `lower` of the database: of ASCII letters only. -/
def lowerAscii (text : Text) : Text := text.map Char.toLower

def sameTitle (a b : Text) : Bool := lowerAscii a = lowerAscii b

/-- `order by updated_at desc`. -/
def newestFirst (a b : Publication) : Bool := ¬ a.updatedAt < b.updatedAt

def findByMerchantTitle (db : Database) (merchantId : String) (title : Text) (status : Status) :
    Option Publication :=
  ((db.publications.filter fun p =>
    p.merchantId = merchantId && sameTitle p.title title && p.status = status).mergeSort
      newestFirst).head?

def getRow (db : Database) (publicationId : String) : Option Publication :=
  Table.lookup Publication.publicationId publicationId db.publications

def publishEventType (existing : Option PublicationView) (c : Canonical) : EventType :=
  match existing with
  | none => .productAdded
  | some existing =>
    let faqChanged := existing.faq ≠ c.faq
    let othersChanged := existing.merchantDisplayName ≠ c.merchantDisplayName ||
      existing.shopPlatform ≠ c.shopPlatform || existing.shopUrl ≠ c.shopUrl ||
      existing.title ≠ c.title || existing.category ≠ c.category ||
      existing.summary ≠ c.summary || existing.expiresAt ≠ c.expiresAt
    if faqChanged && !othersChanged then .faqUpdated else .productUpdated

/-- The event of a row, in the transaction that has written the row. -/
def emitFor (env : PublicationEnv) (db : Database) (row : Publication) (eventId : String)
    (eventType : EventType) (now : UtcClock) : Option Database :=
  (emitPublicEvent (eventPayloads env) db.events eventId row.merchantId row.publicationId eventType
    (publicProjection env (nowIsoText now) (rowToPublication env row)).json now).map
      fun events => { db with events := events }

def newRow (env : PublicationEnv) (publicationId merchantId : String) (c : Canonical)
    (action : Action) (now : UtcClock) : Publication where
  publicationId := publicationId
  merchantId := merchantId
  status := if action = .publish then .published else .draft
  merchantDisplayName := c.merchantDisplayName
  shopPlatform := c.shopPlatform
  shopUrl := c.shopUrl
  title := c.title
  category := c.category
  summary := c.summary
  faqJson := encodeJson env.codec (faqJson c.faq)
  publishedAt := if action = .publish then nowIsoText now else []
  expiresAt := c.expiresAt
  version := 1
  viewCount := 0
  createdAt := nowIsoText now
  updatedAt := nowIsoText now

/-- The update of a row; its title stays. -/
def refreshedRow (env : PublicationEnv) (c : Canonical) (action : Action) (now : UtcClock)
    (row : Publication) : Publication :=
  { row with
    merchantDisplayName := c.merchantDisplayName
    shopPlatform := c.shopPlatform
    shopUrl := c.shopUrl
    category := c.category
    summary := c.summary
    faqJson := encodeJson env.codec (faqJson c.faq)
    status := if action = .publish then .published else row.status
    publishedAt := if action = .publish then nowIsoText now else row.publishedAt
    expiresAt := c.expiresAt
    version := if action = .publish then row.version + 1 else row.version
    updatedAt := nowIsoText now }

/-- Whether the unique index of published titles has room for a row. -/
def titleFree (db : Database) (row : Publication) : Bool :=
  row.status ≠ .published || !db.publications.any fun p =>
    p.merchantId = row.merchantId && sameTitle p.title row.title && p.status = .published

def insertRow (db : Database) (row : Publication) : Option Database :=
  if titleFree db row then
    (Table.insert? Publication.publicationId row db.publications).map fun publications =>
      { db with publications := publications }
  else none

/-- The row's own update, by its id. -/
def writeRow (db : Database) (row : Publication) : Database :=
  { db with
    publications := Table.updateWhere (fun p => p.publicationId = row.publicationId)
      (fun _ => row) db.publications }

def publishedEvent (env : PublicationEnv) (action : Action) (db : Database) (row : Publication)
    (eventId : String) (eventType : EventType) (now : UtcClock) : Option Database :=
  if action = .publish then emitFor env db row eventId eventType now else some db

/-- The database and the row afterwards; `none` is an exception, which rolls everything back. -/
def upsertPublication (env : PublicationEnv) (db : Database) (merchantId : String) (c : Canonical)
    (action : Action) (publicationId eventId : String) (now : UtcClock) :
    Option (Database × Publication) :=
  let status := if action = .draft then .draft else .published
  match findByMerchantTitle db merchantId c.title status with
  | none =>
    let row := newRow env publicationId merchantId c action now
    ((insertRow db row).bind fun db' =>
      publishedEvent env action db' row eventId .productAdded now).map fun db' => (db', row)
  | some existing =>
    let row := refreshedRow env c action now existing
    (publishedEvent env action (writeRow db row) row eventId
      (publishEventType (some (rowToPublication env existing)) c) now).map fun db' => (db', row)

def withdrawnRow (now : UtcClock) (row : Publication) : Publication :=
  { row with status := .withdrawn, updatedAt := nowIsoText now }

inductive WithdrawError
  | unknownPublication
  | otherMerchant
  | notEmitted
  deriving DecidableEq, Repr

def withdrawPublication (env : PublicationEnv) (db : Database) (publicationId merchantId : String)
    (eventId : String) (now : UtcClock) : Except WithdrawError Database :=
  match getRow db publicationId with
  | none => .error .unknownPublication
  | some row =>
    if row.merchantId = merchantId then
      match emitFor env (writeRow db (withdrawnRow now row)) (withdrawnRow now row) eventId
          .publicationWithdrawn now with
      | some db' => .ok db'
      | none => .error .notEmitted
    else .error .otherMerchant

/-- A view of the detail by somebody else than its merchant. -/
def recordPublicView (db : Database) (publicationId : String) : Database :=
  { db with
    publications := Table.updateWhere (fun p => p.publicationId = publicationId)
      (fun p => { p with viewCount := p.viewCount + 1 }) db.publications }

/-! ## 2. Reading -/

/-- The condition of every public query. -/
def isPublic (now : Text) (p : Publication) : Bool :=
  p.status = .published && isUnexpired p.expiresAt now

def publicRows (db : Database) (now : Text) : List Publication :=
  db.publications.filter (isPublic now)

/-- `order by updated_at desc, publication_id desc`. -/
def publicOrder (a b : Publication) : Bool :=
  b.updatedAt < a.updatedAt ||
    (a.updatedAt = b.updatedAt && ¬ a.publicationId < b.publicationId)

/-- `like '%term%'`: a part of the text, whatever the case of ASCII letters. -/
def likeContains (term text : Text) : Bool :=
  (lowerAscii text).tails.any fun tail => (lowerAscii term).isPrefixOf tail

/-- A search with its query parsed; an empty text filters nothing. -/
structure SearchQuery where
  q : Text
  category : Text
  merchantId : String
  limit : Nat
  -- `updated_at` and `publication_id` of the last row of the page before
  cursor : Option (Text × String)

def SearchQuery.matches (query : SearchQuery) (p : Publication) : Bool :=
  (query.q.isEmpty || likeContains query.q p.title || likeContains query.q p.category ||
    likeContains query.q p.summary || likeContains query.q p.merchantDisplayName) &&
  (query.category.isEmpty || p.category = query.category) &&
  (query.merchantId = "" || p.merchantId = query.merchantId) &&
  query.cursor.all fun last =>
    p.updatedAt < last.1 || (p.updatedAt = last.1 && p.publicationId < last.2)

/-- The page and the cursor of the next one. -/
def searchPublications (env : PublicationEnv) (db : Database) (query : SearchQuery) (now : Text) :
    List PublicView × Option (Text × String) :=
  let rows := ((publicRows db now).filter query.matches).mergeSort publicOrder
  let page := (rows.take query.limit).map (rowToPublication env)
  (page.map (publicProjection env now),
    if query.limit < rows.length then page.getLast?.map fun p => (p.updatedAt, p.publicationId)
    else none)

/-- The detail for an anonymous reader; `none` is a 404, whatever the reason. -/
def publicDetail (env : PublicationEnv) (db : Database) (publicationId : String) (now : Text) :
    Option PublicView :=
  ((getRow db publicationId).map (rowToPublication env)).bind fun p =>
    if p.isPubliclyVisible now then some (publicProjection env now p) else none

/-- The detail for the merchant of the row. -/
def ownDetail (env : PublicationEnv) (db : Database) (publicationId merchantId : String)
    (now : Text) : Option PublicView :=
  ((getRow db publicationId).map (rowToPublication env)).bind fun p =>
    if p.isPubliclyVisible now || p.merchantId = merchantId then
      some (publicProjection env now p)
    else none

/-- The rows of a merchant's home page. -/
def listPublicPublications (env : PublicationEnv) (db : Database) (merchantId : String) (now : Text)
    (limit offset : Nat) : List PublicationView :=
  (((((publicRows db now).filter fun p => p.merchantId = merchantId).mergeSort publicOrder).drop
    offset).take limit).map (rowToPublication env)

def latestPublicShopUrl (env : PublicationEnv) (db : Database) (merchantId : String) (now : Text)
    (blockedUrls : List Text) : Text :=
  ((((publicRows db now).filter fun p =>
    p.merchantId = merchantId && !p.shopUrl.isEmpty).mergeSort publicOrder).head?.map fun p =>
      safePublicShopUrl env.text p.shopUrl blockedUrls).getD []

/-! ## 3. What a write does -/

/-- The payload of the event of a row. -/
def eventPayload (env : PublicationEnv) (now : UtcClock) (row : Publication) : Json :=
  sanitizePublicPayload env
    (publicProjection env (nowIsoText now) (rowToPublication env row)).json

theorem emitFor_some {env : PublicationEnv} {db db' : Database} {row : Publication}
    {eventId : String} {eventType : EventType} {now : UtcClock}
    (h : emitFor env db row eventId eventType now = some db') :
    db'.publications = db.publications ∧ ∃ e, db'.events = db.events ++ [e] ∧
      e.payloadJson = String.ofList (encodeJson env.codec (eventPayload env now row)) := by
  obtain ⟨events, hemit, rfl⟩ := Option.map_eq_some_iff.mp h
  refine ⟨rfl, ?_⟩
  obtain ⟨stamp, -, hemit⟩ := Option.bind_eq_some_iff.mp hemit
  simp only at hemit
  split at hemit
  · cases hemit
  · exact ⟨_, (Option.some.inj hemit).symm, rfl⟩

theorem publishedEvent_some {env : PublicationEnv} {action : Action} {db db' : Database}
    {row : Publication} {eventId : String} {eventType : EventType} {now : UtcClock}
    (h : publishedEvent env action db row eventId eventType now = some db') :
    db'.publications = db.publications ∧ (action = .publish → ∃ e, db'.events = db.events ++ [e] ∧
      e.payloadJson = String.ofList (encodeJson env.codec (eventPayload env now row))) := by
  unfold publishedEvent at h
  split at h
  · exact ⟨(emitFor_some h).1, fun _ => (emitFor_some h).2⟩
  · rename_i hdraft
    rw [← Option.some.inj h]
    exact ⟨rfl, fun hpublish => absurd hpublish hdraft⟩

theorem insertRow_some {db db' : Database} {row : Publication} (h : insertRow db row = some db') :
    titleFree db row = true ∧ (∀ p ∈ db.publications, p.publicationId ≠ row.publicationId) ∧
      db' = { db with publications := db.publications ++ [row] } := by
  unfold insertRow at h
  split at h
  · rename_i hfree
    obtain ⟨publications, hinsert, rfl⟩ := Option.map_eq_some_iff.mp h
    obtain ⟨hnew, rfl⟩ := Table.insert?_eq_some hinsert
    exact ⟨hfree, hnew, rfl⟩
  · cases h

theorem findByMerchantTitle_some {db : Database} {merchantId : String} {title : Text}
    {status : Status} {p : Publication}
    (h : findByMerchantTitle db merchantId title status = some p) :
    p ∈ db.publications ∧ p.merchantId = merchantId ∧ sameTitle p.title title = true ∧
      p.status = status := by
  have hmem := List.mem_of_mem_head? h
  rw [List.mem_mergeSort, List.mem_filter, Bool.and_eq_true, Bool.and_eq_true,
    decide_eq_true_eq, decide_eq_true_eq] at hmem
  exact ⟨hmem.1, hmem.2.1.1, hmem.2.1.2, hmem.2.2⟩

theorem getRow_writeRow {db : Database} {existing row : Publication}
    (hmem : existing ∈ db.publications) (hid : row.publicationId = existing.publicationId) :
    getRow (writeRow db row) row.publicationId = some row := by
  have hrow : getRow (writeRow db row) row.publicationId ≠ none := by
    intro hnone
    refine Table.lookup_eq_none.mp hnone row ?_ rfl
    exact Table.mem_updateWhere_of hmem (decide_eq_true hid.symm)
  obtain ⟨found, hfound⟩ := Option.ne_none_iff_exists'.mp hrow
  obtain ⟨hin, hkey⟩ := Table.lookup_mem hfound
  obtain ⟨before, -, hbefore⟩ := Table.mem_updateWhere.mp hin
  -- a row that has the id afterwards is the one written
  have heq : found = row := by
    split at hbefore
    · exact hbefore.symm
    · rename_i hother
      rw [hbefore] at hother
      exact absurd (decide_eq_true hkey) hother
  rw [hfound, heq]

/-- What a save leaves: the row under its id, with the questions and answers of the payload, and
for a publication the event of that row. -/
theorem upsertPublication_some {env : PublicationEnv} {db db' : Database} {merchantId : String}
    {c : Canonical} {action : Action} {publicationId eventId : String} {now : UtcClock}
    {row : Publication}
    (h : upsertPublication env db merchantId c action publicationId eventId now = some (db', row)) :
    getRow db' row.publicationId = some row ∧
      row.faqJson = encodeJson env.codec (faqJson c.faq) ∧
      (action = .publish → ∃ e, db'.events.getLast? = some e ∧
        e.payloadJson = String.ofList (encodeJson env.codec (eventPayload env now row))) := by
  unfold upsertPublication at h
  simp only at h
  split at h
  · obtain ⟨db'', hevent, hresult⟩ := Option.map_eq_some_iff.mp h
    obtain ⟨rfl, rfl⟩ := Prod.mk.inj hresult
    obtain ⟨inserted, hinsert, hevent⟩ := Option.bind_eq_some_iff.mp hevent
    obtain ⟨-, hnew, rfl⟩ := insertRow_some hinsert
    obtain ⟨hpublications, hlast⟩ := publishedEvent_some hevent
    refine ⟨?_, rfl, ?_⟩
    · unfold getRow
      rw [hpublications, Table.lookup, List.find?_append]
      have hnone : Table.lookup Publication.publicationId publicationId db.publications = none :=
        Table.lookup_eq_none.mpr hnew
      change (Table.lookup _ publicationId db.publications).or _ = _
      rw [hnone]
      simp [newRow]
    · intro hpublish
      obtain ⟨e, he, hpayload⟩ := hlast hpublish
      exact ⟨e, by rw [he, List.getLast?_concat], hpayload⟩
  · rename_i existing hfound
    obtain ⟨db'', hevent, hresult⟩ := Option.map_eq_some_iff.mp h
    obtain ⟨rfl, rfl⟩ := Prod.mk.inj hresult
    obtain ⟨hpublications, hlast⟩ := publishedEvent_some hevent
    refine ⟨?_, rfl, ?_⟩
    · unfold getRow
      rw [hpublications]
      exact getRow_writeRow (findByMerchantTitle_some hfound).1 rfl
    · intro hpublish
      obtain ⟨e, he, hpayload⟩ := hlast hpublish
      exact ⟨e, by rw [he, List.getLast?_concat], hpayload⟩

end KiwiCatalog.Publications
