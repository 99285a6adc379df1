import KiwiCatalog.Lib.Transition
import KiwiCatalog.Publications.Store

/-!
# Draft privacy — what the public sees is a function of the published snapshots

Forgetting the drafts of a store gives a store of its own, and every operation but the withdrawal of
a draft acts on it as it acts on the whole one.  So two runs that save different drafts stay equal
to the public, as long as no draft is withdrawn: its withdrawal tells the public what it was.
-/

set_option autoImplicit false

namespace KiwiCatalog.Publications

open Db (encodeJson)
open Feed (EventRow EventType nowIsoText)
open IsoText (UtcClock)
open Transition
open Url (Text)

/-! ## Operations -/

inductive Op
  | save (merchantId : String) (c : Canonical) (action : Action) (publicationId eventId : String)
  | withdraw (publicationId merchantId eventId : String)
  | view (publicationId : String)

/-- An operation at its reading of the clock; one that fails leaves the store. -/
def perform (env : PublicationEnv) (db : Database) (now : UtcClock) : Op → Database
  | .save merchantId c action publicationId eventId =>
    ((upsertPublication env db merchantId c action publicationId eventId now).map Prod.fst).getD db
  | .withdraw publicationId merchantId eventId =>
    ((withdrawPublication env db publicationId merchantId eventId now).toOption).getD db
  | .view publicationId => recordPublicView db publicationId

/-- What the public notices of an operation: nothing of a draft. -/
def publicPerform (env : PublicationEnv) (db : Database) (now : UtcClock) : Op → Database
  | .save _ _ .draft _ _ => db
  | op => perform env db now op

/-- An id drawn for a row is not that of a row. -/
def Op.Fresh (db : Database) : Op → Prop
  | .save _ _ _ publicationId _ => ∀ p ∈ db.publications, p.publicationId ≠ publicationId
  | .withdraw _ _ _ => True
  | .view _ => True

/-- The operation is not the withdrawal of a draft. -/
def Op.SparesDrafts (db : Database) : Op → Prop
  | .save _ _ _ _ _ => True
  | .withdraw publicationId _ _ => ∀ row, getRow db publicationId = some row → row.status ≠ .draft
  | .view _ => True

/-! ## The published part of a store -/

def isSnapshot (p : Publication) : Bool := p.status ≠ .draft

def published (db : Database) : Database :=
  { db with publications := db.publications.filter isSnapshot }

/-- Publication ids are a primary key. -/
def Keyed (db : Database) : Prop := Table.KeyUnique Publication.publicationId db.publications

section Reading

variable {db : Database}

theorem publicRows_published (now : Text) : publicRows (published db) now = publicRows db now := by
  show (db.publications.filter isSnapshot).filter (isPublic now) = _
  rw [List.filter_filter]
  apply List.filter_congr
  intro p _
  cases hstatus : p.status <;> simp [isSnapshot, isPublic, hstatus]

theorem findByMerchantTitle_published (merchantId : String) (title : Text) :
    findByMerchantTitle (published db) merchantId title .published =
      findByMerchantTitle db merchantId title .published := by
  unfold findByMerchantTitle published
  simp only [List.filter_filter]
  congr 2
  apply List.filter_congr
  intro p _
  cases hstatus : p.status <;> simp [isSnapshot, hstatus]

/-- A row that is not a draft is found among the snapshots, and no other is. -/
theorem getRow_published (hkeys : Keyed db) (publicationId : String) :
    getRow (published db) publicationId = (getRow db publicationId).filter isSnapshot := by
  cases hrow : getRow db publicationId with
  | none =>
    have habsent := Table.lookup_eq_none.mp hrow
    exact Table.lookup_eq_none.mpr fun p hp => habsent p (List.mem_filter.mp hp).1
  | some row =>
    obtain ⟨hmem, hid⟩ := Table.lookup_mem hrow
    have hkeys' : Keyed (published db) := hkeys.sublist (List.filter_sublist.map _)
    rw [Option.filter_some]
    split
    · rename_i hsnapshot
      have hin : row ∈ (published db).publications := List.mem_filter.mpr ⟨hmem, hsnapshot⟩
      rw [← hid]
      exact Table.lookup_of_mem hkeys' hin
    · rename_i hdraft
      apply Table.lookup_eq_none.mpr
      intro p hp heq
      obtain ⟨hp, hsnapshot⟩ := List.mem_filter.mp hp
      have hsame := Table.eq_of_key_eq hkeys hp hmem (heq.trans hid.symm)
      exact hdraft (hsame ▸ hsnapshot)

end Reading

/-- Two stores that no public reader can tell apart. -/
structure SamePublicView (env : PublicationEnv) (a b : Database) : Prop where
  events : a.events = b.events
  search : ∀ query now, searchPublications env a query now = searchPublications env b query now
  detail : ∀ publicationId now,
    publicDetail env a publicationId now = publicDetail env b publicationId now
  home : ∀ merchantId now limit offset,
    listPublicPublications env a merchantId now limit offset =
      listPublicPublications env b merchantId now limit offset
  shopUrl : ∀ merchantId now blockedUrls,
    latestPublicShopUrl env a merchantId now blockedUrls =
      latestPublicShopUrl env b merchantId now blockedUrls

theorem SamePublicView.symm {env : PublicationEnv} {a b : Database} (h : SamePublicView env a b) :
    SamePublicView env b a where
  events := h.events.symm
  search query now := (h.search query now).symm
  detail publicationId now := (h.detail publicationId now).symm
  home merchantId now limit offset := (h.home merchantId now limit offset).symm
  shopUrl merchantId now blockedUrls := (h.shopUrl merchantId now blockedUrls).symm

theorem SamePublicView.trans {env : PublicationEnv} {a b c : Database}
    (h : SamePublicView env a b) (h' : SamePublicView env b c) : SamePublicView env a c where
  events := h.events.trans h'.events
  search query now := (h.search query now).trans (h'.search query now)
  detail publicationId now := (h.detail publicationId now).trans (h'.detail publicationId now)
  home merchantId now limit offset :=
    (h.home merchantId now limit offset).trans (h'.home merchantId now limit offset)
  shopUrl merchantId now blockedUrls :=
    (h.shopUrl merchantId now blockedUrls).trans (h'.shopUrl merchantId now blockedUrls)

/-- The public reads the published part. -/
theorem samePublicView_published (env : PublicationEnv) {db : Database} (hkeys : Keyed db) :
    SamePublicView env db (published db) := by
  constructor
  · rfl
  · intro query now
    unfold searchPublications
    rw [publicRows_published]
  · intro publicationId now
    unfold publicDetail
    rw [getRow_published hkeys]
    cases hrow : getRow db publicationId with
    | none => rfl
    | some row =>
      rw [Option.filter_some]
      split
      · rfl
      · rename_i hdraft
        have hstatus : row.status = .draft := by simpa [isSnapshot] using hdraft
        apply if_neg
        simp [PublicationView.isPubliclyVisible, rowToPublication, hstatus]
  · intro merchantId now limit offset
    unfold listPublicPublications
    rw [publicRows_published]
  · intro merchantId now blockedUrls
    unfold latestPublicShopUrl
    rw [publicRows_published]

/-! ## One operation -/

section Writing

variable {env : PublicationEnv} {db db' : Database} {now : UtcClock}

theorem isSnapshot_of_status {p : Publication} {status : Status} (h : p.status = status)
    (hstatus : status ≠ .draft) : isSnapshot p = true := by
  simpa [isSnapshot, h] using hstatus

theorem emitFor_published (row : Publication) (eventId : String) (eventType : EventType) :
    emitFor env (published db) row eventId eventType now =
      (emitFor env db row eventId eventType now).map published := by
  unfold emitFor published
  rw [Option.map_map]
  rfl

/-- Writing a row in place of one that is a snapshot like itself, or a draft like itself. -/
theorem writeRow_published {existing row : Publication} (hkeys : Keyed db)
    (hmem : existing ∈ db.publications) (hid : row.publicationId = existing.publicationId)
    (hkind : isSnapshot row = isSnapshot existing) :
    published (writeRow db row) = writeRow (published db) row := by
  have hfilter : (writeRow db row).publications.filter isSnapshot =
      (writeRow (published db) row).publications := by
    apply Table.filter_updateWhere
    intro p hp hsame
    have heq := Table.eq_of_key_eq hkeys hp hmem ((of_decide_eq_true hsame).trans hid)
    rw [heq, hkind]
  show ({ db with publications := (writeRow db row).publications.filter isSnapshot } : Database) = _
  rw [hfilter]
  rfl

/-- The update of a draft is none of the snapshots. -/
theorem writeRow_draft {existing row : Publication} (hkeys : Keyed db)
    (hmem : existing ∈ db.publications) (hid : row.publicationId = existing.publicationId)
    (hexisting : isSnapshot existing = false) (hrow : isSnapshot row = false) :
    published (writeRow db row) = published db := by
  rw [writeRow_published hkeys hmem hid (hrow.trans hexisting.symm)]
  have habsent : (writeRow (published db) row).publications = (published db).publications := by
    apply Table.updateWhere_of_absent
    intro p hp
    obtain ⟨hp, hsnapshot⟩ := List.mem_filter.mp hp
    rw [decide_eq_false_iff_not]
    intro heq
    have hsame := Table.eq_of_key_eq hkeys hp hmem (heq.trans hid)
    rw [hsame, hexisting] at hsnapshot
    cases hsnapshot
  show ({ db with publications := (writeRow (published db) row).publications } : Database) = _
  rw [habsent]
  rfl

theorem keyed_writeRow (row : Publication) (hkeys : Keyed db) : Keyed (writeRow db row) := by
  -- a row in which `row` is written has its id already
  have hcongr : (writeRow db row).publications =
      Table.updateWhere (fun p => p.publicationId = row.publicationId)
        (fun p => { row with publicationId := p.publicationId }) db.publications := by
    apply Table.updateWhere_congr
    intro p _ hp
    rw [of_decide_eq_true hp]
  unfold Keyed
  rw [hcongr]
  apply Table.keyUnique_updateWhere _ hkeys
  exact fun _ => rfl

theorem keyed_recordPublicView (publicationId : String) (hkeys : Keyed db) :
    Keyed (recordPublicView db publicationId) := by
  apply Table.keyUnique_updateWhere _ hkeys
  exact fun _ => rfl

theorem keyed_upsertPublication {merchantId : String} {c : Canonical} {action : Action}
    {publicationId eventId : String} {row : Publication} (hkeys : Keyed db)
    (h : upsertPublication env db merchantId c action publicationId eventId now =
      some (db', row)) : Keyed db' := by
  unfold upsertPublication at h
  simp only at h
  split at h
  · obtain ⟨db'', hevent, hresult⟩ := Option.map_eq_some_iff.mp h
    obtain ⟨rfl, -⟩ := Prod.mk.inj hresult
    obtain ⟨inserted, hinsert, hevent⟩ := Option.bind_eq_some_iff.mp hevent
    obtain ⟨-, hnew, rfl⟩ := insertRow_some hinsert
    unfold Keyed
    rw [(publishedEvent_some hevent).1]
    exact Table.keyUnique_append hkeys hnew
  · obtain ⟨db'', hevent, hresult⟩ := Option.map_eq_some_iff.mp h
    obtain ⟨rfl, -⟩ := Prod.mk.inj hresult
    unfold Keyed
    rw [(publishedEvent_some hevent).1]
    exact keyed_writeRow _ hkeys

theorem keyed_withdrawPublication {publicationId merchantId eventId : String} (hkeys : Keyed db)
    (h : withdrawPublication env db publicationId merchantId eventId now = .ok db') :
    Keyed db' := by
  unfold withdrawPublication at h
  split at h
  · cases h
  · split at h
    · split at h
      · rename_i hemit
        unfold Keyed
        rw [← Except.ok.inj h, (emitFor_some hemit).1]
        exact keyed_writeRow _ hkeys
      · cases h
    · cases h

theorem keyed_perform (op : Op) (hkeys : Keyed db) : Keyed (perform env db now op) := by
  cases op with
  | save merchantId c action publicationId eventId =>
    show Keyed (((upsertPublication env db merchantId c action publicationId eventId now).map
      Prod.fst).getD db)
    cases hsave : upsertPublication env db merchantId c action publicationId eventId now with
    | none => exact hkeys
    | some saved => exact keyed_upsertPublication hkeys hsave
  | withdraw publicationId merchantId eventId =>
    show Keyed ((withdrawPublication env db publicationId merchantId eventId now).toOption.getD db)
    cases hwithdraw : withdrawPublication env db publicationId merchantId eventId now with
    | error e => exact hkeys
    | ok db' => exact keyed_withdrawPublication hkeys hwithdraw
  | view publicationId => exact keyed_recordPublicView publicationId hkeys

theorem insertRow_published {row : Publication} (hrow : row.status = .published)
    (hfresh : ∀ p ∈ db.publications, p.publicationId ≠ row.publicationId) :
    insertRow (published db) row = (insertRow db row).map published := by
  have hsnapshot : isSnapshot row = true := isSnapshot_of_status hrow (by decide)
  have htitle : titleFree (published db) row = titleFree db row := by
    unfold titleFree published
    simp only [List.any_filter]
    congr 3
    funext p
    cases hstatus : p.status <;> simp [isSnapshot, hstatus]
  have hfree : db.publications.any (fun p => decide (p.publicationId = row.publicationId)) =
      false := by
    simpa using hfresh
  have hfree' : (db.publications.filter isSnapshot).any
      (fun p => decide (p.publicationId = row.publicationId)) = false := by
    rw [List.any_eq_false] at hfree ⊢
    exact fun p hp => hfree p (List.mem_filter.mp hp).1
  unfold insertRow
  rw [htitle]
  split
  · show (Table.insert? _ row (db.publications.filter isSnapshot)).map _ = _
    rw [Table.insert?, Table.insert?, hfree, hfree']
    simp [published, List.filter_append, hsnapshot]
  · rfl

/-- A publication sees and writes snapshots only. -/
theorem upsertPublication_published {merchantId : String} {c : Canonical}
    {publicationId eventId : String} (hkeys : Keyed db)
    (hfresh : ∀ p ∈ db.publications, p.publicationId ≠ publicationId) :
    upsertPublication env (published db) merchantId c .publish publicationId eventId now =
      (upsertPublication env db merchantId c .publish publicationId eventId now).map
        fun saved => (published saved.1, saved.2) := by
  unfold upsertPublication
  simp only [reduceCtorEq, if_false]
  rw [findByMerchantTitle_published]
  split
  · rw [insertRow_published rfl hfresh]
    cases hinsert : insertRow db (newRow env publicationId merchantId c .publish now) with
    | none => rfl
    | some db' =>
      simp only [Option.map_some, Option.bind_some, publishedEvent, if_true]
      rw [emitFor_published, Option.map_map, Option.map_map]
      rfl
  · rename_i existing hfound
    obtain ⟨hmem, -, -, hstatus⟩ := findByMerchantTitle_some hfound
    have hkind : isSnapshot (refreshedRow env c .publish now existing) = isSnapshot existing := by
      rw [isSnapshot_of_status hstatus (by decide)]
      rfl
    simp only [publishedEvent, if_true]
    have hwrite : published (writeRow db (refreshedRow env c .publish now existing)) =
        writeRow (published db) (refreshedRow env c .publish now existing) :=
      writeRow_published hkeys hmem rfl hkind
    rw [← hwrite, emitFor_published, Option.map_map, Option.map_map]
    rfl

/-- Saving a draft leaves the published part and the events. -/
theorem upsertPublication_draft {merchantId : String} {c : Canonical}
    {publicationId eventId : String} {row : Publication} (hkeys : Keyed db)
    (h : upsertPublication env db merchantId c .draft publicationId eventId now =
      some (db', row)) : published db' = published db := by
  unfold upsertPublication at h
  simp only [if_true] at h
  split at h
  · obtain ⟨db'', hevent, hresult⟩ := Option.map_eq_some_iff.mp h
    obtain ⟨rfl, -⟩ := Prod.mk.inj hresult
    obtain ⟨inserted, hinsert, hevent⟩ := Option.bind_eq_some_iff.mp hevent
    obtain ⟨-, -, rfl⟩ := insertRow_some hinsert
    rw [← Option.some.inj hevent]
    have hdraft : isSnapshot (newRow env publicationId merchantId c .draft now) = false := rfl
    simp [published, List.filter_append, hdraft]
  · rename_i existing hfound
    obtain ⟨db'', hevent, hresult⟩ := Option.map_eq_some_iff.mp h
    obtain ⟨rfl, -⟩ := Prod.mk.inj hresult
    rw [← Option.some.inj hevent]
    obtain ⟨hmem, -, -, hstatus⟩ := findByMerchantTitle_some hfound
    have hexisting : isSnapshot existing = false := by simp [isSnapshot, hstatus]
    exact writeRow_draft hkeys hmem rfl hexisting hexisting

/-- The withdrawal of a snapshot sees and writes snapshots only. -/
theorem withdrawPublication_published {publicationId merchantId eventId : String}
    (hkeys : Keyed db)
    (hspares : ∀ row, getRow db publicationId = some row → row.status ≠ .draft) :
    withdrawPublication env (published db) publicationId merchantId eventId now =
      (withdrawPublication env db publicationId merchantId eventId now).map published := by
  have hrow : getRow (published db) publicationId = getRow db publicationId := by
    rw [getRow_published hkeys]
    cases hrow : getRow db publicationId with
    | none => rfl
    | some row => exact if_pos (isSnapshot_of_status rfl (hspares row hrow))
  unfold withdrawPublication
  rw [hrow]
  cases hrow : getRow db publicationId with
  | none => rfl
  | some row =>
    simp only
    split
    · have hkind : isSnapshot (withdrawnRow now row) = isSnapshot row :=
        (isSnapshot_of_status rfl (hspares row hrow)).symm
      have hwrite : published (writeRow db (withdrawnRow now row)) =
          writeRow (published db) (withdrawnRow now row) :=
        writeRow_published hkeys (Table.lookup_mem hrow).1 rfl hkind
      rw [← hwrite, emitFor_published]
      cases emitFor env (writeRow db (withdrawnRow now row)) (withdrawnRow now row) eventId
        .publicationWithdrawn now <;> rfl
    · rfl

theorem recordPublicView_published (publicationId : String) :
    published (recordPublicView db publicationId) =
      recordPublicView (published db) publicationId := by
  have hfilter := Table.filter_updateWhere (q := isSnapshot) (t := db.publications)
    (p := fun p => decide (p.publicationId = publicationId))
    (f := fun p => { p with viewCount := p.viewCount + 1 }) fun _ _ _ => rfl
  show ({ db with publications := List.filter isSnapshot (Table.updateWhere _ _ _) } : Database) = _
  rw [hfilter]
  rfl

/-- The store without drafts moves by itself. -/
theorem published_perform {op : Op} (hkeys : Keyed db) (hfresh : op.Fresh db)
    (hspares : op.SparesDrafts db) :
    published (perform env db now op) = publicPerform env (published db) now op := by
  cases op with
  | save merchantId c action publicationId eventId =>
    cases action with
    | draft =>
      show published (((upsertPublication env db merchantId c .draft publicationId eventId now).map
        Prod.fst).getD db) = published db
      cases hsave : upsertPublication env db merchantId c .draft publicationId eventId now with
      | none => rfl
      | some saved => exact upsertPublication_draft hkeys hsave
    | publish =>
      show published (((upsertPublication env db merchantId c .publish publicationId eventId
        now).map Prod.fst).getD db) = ((upsertPublication env (published db) merchantId c .publish
          publicationId eventId now).map Prod.fst).getD (published db)
      rw [upsertPublication_published hkeys hfresh]
      cases upsertPublication env db merchantId c .publish publicationId eventId now <;> rfl
  | withdraw publicationId merchantId eventId =>
    show published ((withdrawPublication env db publicationId merchantId eventId
      now).toOption.getD db) = (withdrawPublication env (published db) publicationId merchantId
        eventId now).toOption.getD (published db)
    rw [withdrawPublication_published hkeys hspares]
    cases withdrawPublication env db publicationId merchantId eventId now <;> rfl
  | view publicationId => exact recordPublicView_published publicationId

end Writing

/-! ## Two runs -/

/-- Operations of two runs at the same point: the same one, or two drafts. -/
inductive SameButDrafts : Op → Op → Prop
  | same (op : Op) : SameButDrafts op op
  | draft (merchantId : String) (c c' : Canonical) (publicationId eventId : String) :
    SameButDrafts (.save merchantId c .draft publicationId eventId)
      (.save merchantId c' .draft publicationId eventId)

structure Runs where
  first : Database
  second : Database

/-- Both runs start from one store. -/
def Initial (s : Runs) : Prop := s.first = s.second ∧ Keyed s.first

/-- A step of both runs, with an operation that is allowed in each. -/
inductive Step (env : PublicationEnv) (allowed : Database → Op → Prop) : Runs → Runs → Prop
  | both {s : Runs} {op op' : Op} (now : UtcClock) (hsame : SameButDrafts op op')
      (hfresh : op.Fresh s.first) (hfresh' : op'.Fresh s.second)
      (hallowed : allowed s.first op) (hallowed' : allowed s.second op') :
      Step env allowed s ⟨perform env s.first now op, perform env s.second now op'⟩

/-- The runs differ in their drafts at most. -/
structure Agree (s : Runs) : Prop where
  snapshots : published s.first = published s.second
  keyed : Keyed s.first
  keyed' : Keyed s.second

theorem publicPerform_same {env : PublicationEnv} {db : Database} {now : UtcClock} {op op' : Op}
    (h : SameButDrafts op op') : publicPerform env db now op = publicPerform env db now op' := by
  cases h with
  | same op => rfl
  | draft merchantId c c' publicationId eventId => rfl

theorem agree_preserved (env : PublicationEnv) :
    Preserves (Step env fun db op => op.SparesDrafts db) Agree := by
  intro s t hstep h
  cases hstep with
  | both now hsame hfresh hfresh' hspares hspares' =>
    constructor
    · rw [published_perform h.keyed hfresh hspares, published_perform h.keyed' hfresh' hspares',
        h.snapshots]
      exact publicPerform_same hsame
    · exact keyed_perform _ h.keyed
    · exact keyed_perform _ h.keyed'

/-- Two runs that differ in their drafts look the same to the public, as long as none of them
withdraws a draft. -/
theorem drafts_private {env : PublicationEnv} {s : Runs}
    (h : Reachable Initial (Step env fun db op => op.SparesDrafts db) s) :
    SamePublicView env s.first s.second := by
  have hagree : Agree s := by
    apply reachable_invariant _ (agree_preserved env) h
    intro s₀ hinit
    exact ⟨congrArg published hinit.1, hinit.2, hinit.1 ▸ hinit.2⟩
  have hfirst := samePublicView_published env hagree.keyed
  have hsecond := samePublicView_published env hagree.keyed'
  rw [← hagree.snapshots] at hsecond
  exact hfirst.trans hsecond.symm

/-! ## Two drafts -/

/-- Python's JSON of an event of a pump, up to its summary. -/
def pumpHead (publicationId publishedAt status : Text) : Text :=
  ("\x7b\"category\": \"\", \"expires_at\": \"\", \"faq\": [], " ++
    "\"inquiry_available\": false, \"merchant_display_name\": \"Kiwi\", " ++
    "\"merchant_id\": \"m1\", \"public_home_url\": \"\", \"publication_id\": \"").toList ++
  publicationId ++ "\", \"published_at\": \"".toList ++ publishedAt ++
  ("\", \"shop_platform\": \"\", \"shop_url\": \"\", " ++
    "\"source_kind\": \"merchant_declared\", \"status\": \"").toList ++ status ++
  "\", \"summary\": \"".toList

/-- The rest of it. -/
def pumpTail : Text :=
  ("\", \"title\": \"Pump\", " ++
    "\"updated_at\": \"0001-01-01T00:00:00+00:00\", \"version\": 1\x7d").toList

def plainField (fields : List (String × Json)) (key : String) : Text :=
  match Json.field key fields with
  | some (.text s) => s
  | _ => []

def draftEnv : PublicationEnv where
  text := asciiEnv
  codec :=
    { dumps := fun
        | .object fields =>
          pumpHead (plainField fields "publication_id") (plainField fields "published_at")
            (plainField fields "status") ++ (plainField fields "summary" ++ pumpTail)
        | _ => "[]".toList
      loads := fun _ => some (.array []) }
  repr := fun _ => []
  normalizeExpiresAt := .ok
  publicMerchantHomeUrl := fun _ => []

def pumpDraft (summary : Text) : Canonical where
  merchantDisplayName := "Kiwi".toList
  title := "Pump".toList
  category := []
  shopPlatform := []
  summary := summary
  shopUrl := []
  faq := []
  expiresAt := []

def draftRow (summary : Text) : Publication :=
  newRow draftEnv "p1" "m1" (pumpDraft summary) .draft firstClock

/-- The store with the draft alone. -/
def draftSaved (summary : Text) : Database := ⟨[draftRow summary], []⟩

theorem perform_first_draft (summary : Text) :
    perform draftEnv ⟨[], []⟩ firstClock (.save "m1" (pumpDraft summary) .draft "p1" "e1") =
      draftSaved summary := by
  unfold perform upsertPublication findByMerchantTitle
  simp only [List.filter_nil, List.mergeSort_nil, List.head?_nil]
  rfl

/-- Two runs have saved their drafts. -/
theorem reachable_drafts {allowed : Database → Op → Prop}
    (hsave : ∀ db summary, allowed db (.save "m1" (pumpDraft summary) .draft "p1" "e1")) :
    Reachable Initial (Step draftEnv allowed) ⟨draftSaved "a".toList, draftSaved "b".toList⟩ := by
  have hstart : Reachable Initial (Step draftEnv allowed) ⟨⟨[], []⟩, ⟨[], []⟩⟩ :=
    reachable_init ⟨rfl, List.nodup_nil⟩
  have hsaved := reachable_step hstart (.both firstClock
    (.draft "m1" (pumpDraft "a".toList) (pumpDraft "b".toList) "p1" "e1")
    (fun _ hp => absurd hp List.not_mem_nil) (fun _ hp => absurd hp List.not_mem_nil) (hsave _ _) (hsave _ _))
  rw [perform_first_draft, perform_first_draft] at hsaved
  exact hsaved

/-- A publication beside them, under the same title. -/
def publishPump : Op := .save "m1" (pumpDraft "c".toList) .publish "p2" "e2"

theorem drafts_private_published :
    SamePublicView draftEnv (perform draftEnv (draftSaved "a".toList) firstClock publishPump)
      (perform draftEnv (draftSaved "b".toList) firstClock publishPump) := by
  have hfresh : ∀ summary, publishPump.Fresh (draftSaved summary) := by
    intro summary p hp
    rw [List.mem_singleton.mp hp]
    show "p1" ≠ "p2"
    decide
  have hsaved : Reachable Initial (Step draftEnv fun db op => op.SparesDrafts db)
      ⟨draftSaved "a".toList, draftSaved "b".toList⟩ := reachable_drafts fun _ _ => trivial
  have hpublished := reachable_step hsaved
    (.both firstClock (.same publishPump) (hfresh _) (hfresh _) trivial trivial)
  exact drafts_private hpublished

/-- The texts of a row in the payload of its event. -/
theorem eventPayload_fields (env : PublicationEnv) (now : UtcClock) (row : Publication) :
    ∃ fields, eventPayload env now row = .object fields ∧
      plainField fields "publication_id" =
        redactShareCodeText env.text row.publicationId.toList ∧
      plainField fields "published_at" = redactShareCodeText env.text row.publishedAt ∧
      plainField fields "status" = redactShareCodeText env.text row.status.text ∧
      plainField fields "summary" = redactPublicText env.text
        (redactPublicText env.text (redactPublicText env.text row.summary)) := by
  refine ⟨_, rfl, ?_⟩
  simp [plainField, sanitizePublicPayload, sanitizePublicFields, Json.field, publicTextFields,
    publicProjection, rowToPublication]

/-- What the event of a row says before its summary. -/
def headOf (row : Publication) : Text :=
  pumpHead (redactShareCodeText asciiEnv row.publicationId.toList)
    (redactShareCodeText asciiEnv row.publishedAt) (redactShareCodeText asciiEnv row.status.text)

theorem encode_eventPayload (row : Publication)
    (h : redactPublicText asciiEnv row.summary = row.summary) :
    encodeJson draftEnv.codec (eventPayload draftEnv firstClock row) =
      headOf row ++ (row.summary ++ pumpTail) := by
  obtain ⟨fields, hobject, hid, hpublished, hstatus, hsummary⟩ :=
    eventPayload_fields draftEnv firstClock row
  change _ = redactPublicText asciiEnv
    (redactPublicText asciiEnv (redactPublicText asciiEnv row.summary)) at hsummary
  rw [h, h, h] at hsummary
  rw [hobject]
  show pumpHead (plainField fields "publication_id") (plainField fields "published_at")
    (plainField fields "status") ++ (plainField fields "summary" ++ pumpTail) = _
  rw [hid, hpublished, hstatus, hsummary]
  rfl

/-- The first event of a store is that of a withdrawal. -/
theorem withdrawPublication_first (env : PublicationEnv) (rows : List Publication)
    (row : Publication) (eventId : String) (now : UtcClock)
    (hrow : getRow ⟨rows, []⟩ row.publicationId = some row) :
    ∃ rows' e, withdrawPublication env ⟨rows, []⟩ row.publicationId row.merchantId eventId now =
        .ok ⟨rows', [e]⟩ ∧
      e.payloadJson =
        String.ofList (encodeJson env.codec (eventPayload env now (withdrawnRow now row))) := by
  unfold withdrawPublication
  rw [hrow]
  simp only [if_true]
  exact ⟨_, _, rfl, rfl⟩

theorem withdraw_draft_events {summary : Text} (h : redactPublicText asciiEnv summary = summary) :
    (perform draftEnv (draftSaved summary) firstClock (.withdraw "p1" "m1" "e2")).events.map
      EventRow.payloadJson = [String.ofList
        (headOf (withdrawnRow firstClock (draftRow [])) ++ (summary ++ pumpTail))] := by
  have hrow : getRow (draftSaved summary) "p1" = some (draftRow summary) := by
    simp [getRow, draftSaved, draftRow, Table.lookup, newRow]
  obtain ⟨rows, e, hwithdraw, hpayload⟩ :=
    withdrawPublication_first draftEnv [draftRow summary] (draftRow summary) "e2" firstClock hrow
  rw [encode_eventPayload (withdrawnRow firstClock (draftRow summary)) h] at hpayload
  change withdrawPublication draftEnv (draftSaved summary) "p1" "m1" "e2" firstClock = _ at hwithdraw
  unfold perform
  simp only [hwithdraw]
  show [e.payloadJson] = _
  rw [hpayload]
  rfl

/-- The summary of a draft is read in the event of its withdrawal. -/
theorem withdrawn_draft_shown :
    ¬ ∀ (env : PublicationEnv) (s : Runs),
      Reachable Initial (Step env fun _ _ => True) s → SamePublicView env s.first s.second := by
  intro hall
  have hsaved : Reachable Initial (Step draftEnv fun _ _ => True)
      ⟨draftSaved "a".toList, draftSaved "b".toList⟩ := reachable_drafts fun _ _ => trivial
  have hwithdrawn := reachable_step hsaved (.both firstClock
    (.same (.withdraw "p1" "m1" "e2")) trivial trivial trivial trivial)
  have hevents := congrArg (List.map EventRow.payloadJson) (hall _ _ hwithdrawn).events
  rw [withdraw_draft_events (by decide), withdraw_draft_events (by decide)] at hevents
  have htext := String.ofList_injective (List.singleton_inj.mp hevents)
  have hsummary := List.append_cancel_right (List.append_cancel_left htext)
  exact absurd hsummary (by decide)

end KiwiCatalog.Publications
