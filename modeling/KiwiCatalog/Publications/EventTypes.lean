import KiwiCatalog.Publications.DraftPrivacy
import KiwiCatalog.Publications.FaqRoundTrip

/-!
# Event types — what a publish is announced as

A publish compares its content with the published row as services read it.  The questions and
answers of that row are never read back, so they count as none in every comparison.
-/

set_option autoImplicit false

namespace KiwiCatalog.Publications

open Db (encodeJson)
open Feed (EventRow EventType nowIsoText)
open IsoText (UtcClock)
open Transition
open Url (Text)

/-! ## 1. Contents -/

/-- The fields of a content that are compared next to its questions and answers. -/
def Canonical.besidesFaq (c : Canonical) : List Text :=
  [c.merchantDisplayName, c.shopPlatform, c.shopUrl, c.title, c.category, c.summary, c.expiresAt]

/-- The content that a publish leaves published: its own, under the title of the first one. -/
def snapshotOf (last : Option Canonical) (c : Canonical) : Canonical :=
  { c with title := (last.map Canonical.title).getD c.title }

/-- What a publish is to be announced as, after the snapshot published last. -/
def eventTypeAfter (last : Option Canonical) (c : Canonical) : EventType :=
  match last with
  | none => .productAdded
  | some snapshot =>
    if snapshot.faq ≠ c.faq ∧ snapshot.besidesFaq = c.besidesFaq then .faqUpdated
    else .productUpdated

/-- The same, with the new questions compared with none. -/
def comparedType (last : Option Canonical) (c : Canonical) : EventType :=
  match last with
  | none => .productAdded
  | some snapshot =>
    if c.faq ≠ [] ∧ snapshot.besidesFaq = c.besidesFaq then .faqUpdated else .productUpdated

/-- Comparing the new questions with none gives what comparing them with the last ones gives. -/
def FaqCompares (last : Option Canonical) (c : Canonical) : Prop :=
  match last with
  | none => True
  | some snapshot => snapshot.besidesFaq ≠ c.besidesFaq ∨ snapshot.faq = [] ∨
      c.faq ≠ [] ∧ c.faq ≠ snapshot.faq

theorem comparedType_eq_iff (last : Option Canonical) (c : Canonical) :
    comparedType last c = eventTypeAfter last c ↔ FaqCompares last c := by
  cases last with
  | none => exact iff_of_true rfl trivial
  | some snapshot =>
    unfold comparedType eventTypeAfter FaqCompares
    by_cases hbesides : snapshot.besidesFaq = c.besidesFaq
    · by_cases hnone : c.faq = []
      · -- the questions are taken away, or there have been none
        by_cases hlast : snapshot.faq = []
        · simp [hnone, hlast]
        · simp [hbesides, hnone, hlast]
      · by_cases hsame : snapshot.faq = c.faq
        · simp [hbesides, hnone, hsame]
        · simp [hbesides, hnone, hsame, Ne.symm hsame]
    · simp [hbesides]

/-- The texts and the link of a content are read as they are stored. -/
structure Clean (env : PublicationEnv) (c : Canonical) : Prop where
  texts : ∀ s ∈ [c.merchantDisplayName, c.title, c.category, c.summary, c.shopPlatform],
    redactPublicText env.text s = s
  shopUrl : safePublicShopUrl env.text c.shopUrl [] = c.shopUrl

theorem validateShopUrl_ok {env : TextEnv} {raw url : Text} (h : validateShopUrl env raw = .ok url) :
    url = Url.strip raw := by
  unfold validateShopUrl at h
  simp only at h
  split at h
  · rename_i hempty
    rw [← Except.ok.inj h, List.isEmpty_iff.mp hempty]
  · split at h
    · cases h
    · split at h
      · cases h
      · split at h
        · cases h
        · split at h
          · cases h
          · split at h
            · cases h
            · exact (Except.ok.inj h).symm

/-- A public link is the text it was given as, without the blanks around it, or nothing. -/
theorem safePublicShopUrl_eq (env : TextEnv) (raw : Text) (blockedUrls : List Text) :
    safePublicShopUrl env raw blockedUrls = [] ∨
      safePublicShopUrl env raw blockedUrls = Url.strip raw := by
  unfold safePublicShopUrl
  split
  · exact .inl rfl
  · rename_i url hvalid
    split
    · exact .inl rfl
    · split
      · exact .inl rfl
      · exact .inr (validateShopUrl_ok hvalid)

theorem shopUrlField_ok {env : PublicationEnv} {payload : List (String × Json)} {url : Text}
    (h : shopUrlField env payload = .ok url) : safePublicShopUrl env.text url [] = url := by
  unfold shopUrlField at h
  split at h
  · cases h
  · rename_i url' hvalid
    obtain ⟨hsafe, h⟩ := Checks.check_bind h
    obtain rfl := Except.ok.inj h
    have hstripped : Url.strip url' = url' := by
      rw [validateShopUrl_ok hvalid, Url.strip_strip]
    rcases safePublicShopUrl_eq env.text url' [] with hnone | hsome
    · -- a link that is not shown is refused, unless there is none
      rw [Bool.or_eq_true] at hsafe
      rcases hsafe with hempty | hlink
      · rw [hnone, List.isEmpty_iff.mp hempty]
      · rw [isSafeLink, hnone] at hlink
        cases hlink
    · rw [hsome, hstripped]

/-- What the write path accepts is read as it is stored. -/
theorem clean_of_accepted {env : PublicationEnv} {payload : List (String × Json)} {c : Canonical}
    {action : Action} (h : acceptPayload env payload = .ok (c, action)) : Clean env c := by
  obtain ⟨hvalid, hunchanged⟩ := acceptPayload_ok h
  constructor
  · simp only [publicTextPairs, List.forall_mem_append, List.forall_mem_cons] at hunchanged
    obtain ⟨⟨hname, htitle, hcategory, hsummary, hplatform, -⟩, -⟩ := hunchanged
    intro s hs
    simp only [List.mem_cons, List.not_mem_nil, or_false] at hs
    rcases hs with rfl | rfl | rfl | rfl | rfl
    · exact hname
    · exact htitle
    · exact hcategory
    · exact hsummary
    · exact hplatform
  · unfold validatePayload at hvalid
    obtain ⟨_, _, hvalid⟩ := Checks.bind_eq_ok hvalid
    obtain ⟨_, _, hvalid⟩ := Checks.bind_eq_ok hvalid
    obtain ⟨_, _, hvalid⟩ := Checks.bind_eq_ok hvalid
    obtain ⟨_, _, hvalid⟩ := Checks.bind_eq_ok hvalid
    obtain ⟨_, _, hvalid⟩ := Checks.bind_eq_ok hvalid
    obtain ⟨_, _, hvalid⟩ := Checks.bind_eq_ok hvalid
    obtain ⟨_, hvalid⟩ := Checks.check_bind hvalid
    obtain ⟨_, hvalid⟩ := Checks.check_bind hvalid
    obtain ⟨url, hurl, hvalid⟩ := Checks.bind_eq_ok hvalid
    obtain ⟨_, _, hvalid⟩ := Checks.bind_eq_ok hvalid
    obtain ⟨_, _, hvalid⟩ := Checks.bind_eq_ok hvalid
    obtain ⟨rfl, rfl⟩ := Prod.mk.inj (Except.ok.inj hvalid)
    exact shopUrlField_ok hurl

/-! ## 2. The published row of a title -/

/-- A published row of a merchant under a title, whatever the case of its letters. -/
def isSnapshotOf (merchantId : String) (title : Text) (p : Publication) : Bool :=
  p.merchantId = merchantId && sameTitle p.title title && p.status = .published

def snapshots (db : Database) (merchantId : String) (title : Text) : List Publication :=
  db.publications.filter (isSnapshotOf merchantId title)

theorem isSnapshotOf_iff {merchantId : String} {title : Text} {p : Publication} :
    isSnapshotOf merchantId title p = true ↔
      p.merchantId = merchantId ∧ sameTitle p.title title = true ∧ p.status = .published := by
  rw [isSnapshotOf, Bool.and_eq_true, Bool.and_eq_true, decide_eq_true_eq, decide_eq_true_eq,
    and_assoc]

theorem sameTitle_iff {a b : Text} : sameTitle a b = true ↔ lowerAscii a = lowerAscii b :=
  decide_eq_true_iff

theorem isSnapshotOf_congr {a b : Text} (h : sameTitle a b = true) (merchantId : String) :
    isSnapshotOf merchantId a = isSnapshotOf merchantId b := by
  funext p
  rw [isSnapshotOf, isSnapshotOf, sameTitle, sameTitle, sameTitle_iff.mp h]

theorem findByMerchantTitle_published_eq (db : Database) (merchantId : String) (title : Text) :
    findByMerchantTitle db merchantId title .published =
      ((snapshots db merchantId title).mergeSort newestFirst).head? := rfl

/-- The snapshots are among the published part of the store. -/
theorem snapshots_published (db : Database) (merchantId : String) (title : Text) :
    snapshots (published db) merchantId title = snapshots db merchantId title := by
  show (db.publications.filter isSnapshot).filter _ = db.publications.filter _
  rw [List.filter_filter]
  apply List.filter_congr
  intro p _
  cases hp : isSnapshotOf merchantId title p with
  | false => rfl
  | true =>
    have hstatus := (isSnapshotOf_iff.mp hp).2.2
    rw [Bool.true_and, isSnapshot, hstatus]
    rfl

/-- The row holds a content, apart from its questions and answers. -/
structure Holds (p : Publication) (c : Canonical) : Prop where
  merchantDisplayName : p.merchantDisplayName = c.merchantDisplayName
  shopPlatform : p.shopPlatform = c.shopPlatform
  shopUrl : p.shopUrl = c.shopUrl
  title : p.title = c.title
  category : p.category = c.category
  summary : p.summary = c.summary
  expiresAt : p.expiresAt = c.expiresAt

/-- A row of a clean content is compared as this content with no questions. -/
theorem publishEventType_of_holds {env : PublicationEnv} {p : Publication} {snapshot : Canonical}
    (hholds : Holds p snapshot) (hclean : Clean env snapshot) (c : Canonical) :
    publishEventType (some (rowToPublication env p)) c = comparedType (some snapshot) c := by
  have htexts := hclean.texts
  simp only [List.forall_mem_cons] at htexts
  obtain ⟨hname, htitle, hcategory, hsummary, hplatform, -⟩ := htexts
  have hfaq := rowToPublication_faq env p
  simp only [publishEventType, comparedType, hfaq]
  simp only [rowToPublication, hholds.merchantDisplayName, hholds.shopPlatform, hholds.shopUrl,
    hholds.title, hholds.category, hholds.summary, hholds.expiresAt, hname, htitle, hcategory,
    hsummary, hplatform, hclean.shopUrl, Canonical.besidesFaq, List.cons.injEq]
  congr 1
  simp only [eq_iff_iff, Bool.and_eq_true, Bool.not_eq_true', decide_eq_true_eq,
    Bool.or_eq_false_iff, decide_eq_false_iff_not, ne_eq, not_not, and_true, eq_comm (a := [])]
  tauto

/-! ## 3. What a save leaves -/

section Saving

variable {env : PublicationEnv} {db db' : Database} {merchantId : String} {title : Text}
  {c : Canonical} {publicationId eventId : String} {now : UtcClock} {row : Publication}

/-- The event that a publish appends. -/
theorem publishedEvent_type {before : Database} {eventType : EventType}
    (h : publishedEvent env .publish before row eventId eventType now = some db') :
    ∃ e, db'.events = before.events ++ [e] ∧ e.eventType = eventType := by
  obtain ⟨events, hemit, rfl⟩ := Option.map_eq_some_iff.mp h
  obtain ⟨stamp, -, hemit⟩ := Option.bind_eq_some_iff.mp hemit
  simp only at hemit
  split at hemit
  · cases hemit
  · exact ⟨_, (Option.some.inj hemit).symm, rfl⟩

/-- Writing a row of another merchant or title leaves the snapshots. -/
theorem snapshots_writeRow_other {existing : Publication} (hkeys : Keyed db)
    (hmem : existing ∈ db.publications) (hid : row.publicationId = existing.publicationId)
    (hexisting : isSnapshotOf merchantId title existing = false)
    (hrow : isSnapshotOf merchantId title row = false) :
    snapshots (writeRow db row) merchantId title = snapshots db merchantId title := by
  have honly : ∀ p ∈ db.publications, p.publicationId = row.publicationId → p = existing :=
    fun p hp hkey => Table.eq_of_key_eq hkeys hp hmem (hkey.trans hid)
  show (Table.updateWhere _ _ _).filter _ = _
  rw [Table.filter_updateWhere, Table.updateWhere_of_absent]
  · rfl
  · intro p hp
    obtain ⟨hp, hsnapshot⟩ := List.mem_filter.mp hp
    by_contra hkey
    rw [honly p hp (by simpa using hkey), hexisting] at hsnapshot
    cases hsnapshot
  · intro p hp hkey
    rw [honly p hp (of_decide_eq_true hkey), hexisting, hrow]

/-- Writing the one snapshot replaces it. -/
theorem snapshots_writeRow {existing : Publication} (hkeys : Keyed db)
    (hone : snapshots db merchantId title = [existing])
    (hid : row.publicationId = existing.publicationId)
    (hrow : isSnapshotOf merchantId title row = true) :
    snapshots (writeRow db row) merchantId title = [row] := by
  have hmem : existing ∈ snapshots db merchantId title := by
    rw [hone]
    exact List.mem_singleton_self existing
  obtain ⟨hin, hexisting⟩ := List.mem_filter.mp hmem
  have hfilter : snapshots (writeRow db row) merchantId title =
      Table.updateWhere (fun p => p.publicationId = row.publicationId) (fun _ => row)
        (snapshots db merchantId title) := by
    apply Table.filter_updateWhere
    intro p hp hkey
    have hkey : p.publicationId = row.publicationId := of_decide_eq_true hkey
    rw [Table.eq_of_key_eq hkeys hp hin (hkey.trans hid), hexisting, hrow]
  rw [hfilter, hone]
  show [if decide (existing.publicationId = row.publicationId) then row else existing] = [row]
  rw [if_pos (decide_eq_true hid.symm)]

theorem snapshots_draft (hkeys : Keyed db)
    (h : upsertPublication env db merchantId c .draft publicationId eventId now = some (db', row))
    (merchantId' : String) (title : Text) :
    snapshots db' merchantId' title = snapshots db merchantId' title := by
  rw [← snapshots_published db', upsertPublication_draft hkeys h, snapshots_published]

/-- Publishing under another title, or for another merchant, leaves the snapshots. -/
theorem snapshots_publish_other {merchantId' : String} (hkeys : Keyed db)
    (h : upsertPublication env db merchantId' c .publish publicationId eventId now =
      some (db', row)) (hother : ¬ (merchantId' = merchantId ∧ sameTitle c.title title = true)) :
    snapshots db' merchantId title = snapshots db merchantId title := by
  unfold upsertPublication at h
  simp only at h
  split at h
  · obtain ⟨db'', hevent, hresult⟩ := Option.map_eq_some_iff.mp h
    obtain ⟨rfl, rfl⟩ := Prod.mk.inj hresult
    obtain ⟨inserted, hinsert, hevent⟩ := Option.bind_eq_some_iff.mp hevent
    obtain ⟨-, -, rfl⟩ := insertRow_some hinsert
    have hnew : isSnapshotOf merchantId title
        (newRow env publicationId merchantId' c .publish now) = false := by
      rw [Bool.eq_false_iff]
      intro hsnapshot
      have hsnapshot := isSnapshotOf_iff.mp hsnapshot
      exact hother ⟨hsnapshot.1, hsnapshot.2.1⟩
    rw [snapshots, (publishedEvent_some hevent).1]
    show (db.publications ++ [_]).filter _ = _
    rw [List.filter_append, List.filter_singleton, hnew]
    exact List.append_nil _
  · rename_i existing hfound
    obtain ⟨db'', hevent, hresult⟩ := Option.map_eq_some_iff.mp h
    obtain ⟨rfl, rfl⟩ := Prod.mk.inj hresult
    obtain ⟨hmem, hmerchant, htitle, -⟩ := findByMerchantTitle_some hfound
    have hnot : ∀ p : Publication, p.merchantId = existing.merchantId →
        p.title = existing.title → isSnapshotOf merchantId title p = false := by
      intro p hpmerchant hptitle
      rw [Bool.eq_false_iff]
      intro hsnapshot
      have hsnapshot := isSnapshotOf_iff.mp hsnapshot
      rw [hpmerchant, hptitle] at hsnapshot
      apply hother
      refine ⟨hmerchant.symm.trans hsnapshot.1, ?_⟩
      rw [sameTitle_iff] at htitle ⊢
      exact htitle.symm.trans (sameTitle_iff.mp hsnapshot.2.1)
    rw [snapshots, (publishedEvent_some hevent).1]
    exact snapshots_writeRow_other hkeys hmem rfl (hnot existing rfl rfl) (hnot _ rfl rfl)

/-- The first publish under a title. -/
theorem publish_first (hnone : snapshots db merchantId c.title = [])
    (h : upsertPublication env db merchantId c .publish publicationId eventId now =
      some (db', row)) :
    snapshots db' merchantId c.title = [row] ∧ Holds row c ∧
      ∃ e, db'.events = db.events ++ [e] ∧ e.eventType = .productAdded := by
  have hfind : findByMerchantTitle db merchantId c.title .published = none := by
    rw [findByMerchantTitle_published_eq, hnone]
    simp
  unfold upsertPublication at h
  simp only [reduceCtorEq, if_false, hfind] at h
  obtain ⟨db'', hevent, hresult⟩ := Option.map_eq_some_iff.mp h
  obtain ⟨rfl, rfl⟩ := Prod.mk.inj hresult
  obtain ⟨inserted, hinsert, hevent⟩ := Option.bind_eq_some_iff.mp hevent
  obtain ⟨-, -, rfl⟩ := insertRow_some hinsert
  have hnew : isSnapshotOf merchantId c.title
      (newRow env publicationId merchantId c .publish now) = true :=
    isSnapshotOf_iff.mpr ⟨rfl, sameTitle_iff.mpr rfl, rfl⟩
  obtain ⟨e, he, htype⟩ := publishedEvent_type hevent
  refine ⟨?_, ⟨rfl, rfl, rfl, rfl, rfl, rfl, rfl⟩, e, he, htype⟩
  rw [snapshots, (publishedEvent_some hevent).1]
  show (db.publications ++ [_]).filter _ = _
  rw [List.filter_append, List.filter_singleton, hnew]
  show snapshots db merchantId c.title ++ _ = _
  rw [hnone]
  rfl

/-- A later publish under a title. -/
theorem publish_again {existing : Publication} (hkeys : Keyed db)
    (hone : snapshots db merchantId c.title = [existing])
    (h : upsertPublication env db merchantId c .publish publicationId eventId now =
      some (db', row)) :
    snapshots db' merchantId c.title = [row] ∧ Holds row { c with title := existing.title } ∧
      ∃ e, db'.events = db.events ++ [e] ∧
        e.eventType = publishEventType (some (rowToPublication env existing)) c := by
  have hfind : findByMerchantTitle db merchantId c.title .published = some existing := by
    rw [findByMerchantTitle_published_eq, hone]
    simp
  unfold upsertPublication at h
  simp only [reduceCtorEq, if_false, hfind] at h
  obtain ⟨db'', hevent, hresult⟩ := Option.map_eq_some_iff.mp h
  obtain ⟨rfl, rfl⟩ := Prod.mk.inj hresult
  obtain ⟨hmem, hmerchant, htitle, -⟩ := findByMerchantTitle_some hfind
  have hrow : isSnapshotOf merchantId c.title (refreshedRow env c .publish now existing) = true :=
    isSnapshotOf_iff.mpr ⟨hmerchant, htitle, rfl⟩
  obtain ⟨e, he, htype⟩ := publishedEvent_type hevent
  refine ⟨?_, ⟨rfl, rfl, rfl, rfl, rfl, rfl, rfl⟩, e, he, htype⟩
  rw [snapshots, (publishedEvent_some hevent).1]
  exact snapshots_writeRow hkeys hone rfl hrow

end Saving

/-! ## 4. Runs -/

/-- A publish of the publication: the snapshot before it, its content and what it emitted. -/
structure Publish where
  last : Option Canonical
  content : Canonical
  emitted : List EventType

/-- A store, and what has been published under one title of one merchant. -/
structure History where
  db : Database
  -- not stored
  last : Option Canonical
  publishes : List Publish

/-- No row under the title has been published yet. -/
def Unpublished (merchantId : String) (title : Text) (s : History) : Prop :=
  Keyed s.db ∧ s.last = none ∧ s.publishes = [] ∧
    ∀ p ∈ s.db.publications, p.merchantId = merchantId → sameTitle p.title title = true →
      p.status = .draft

/-- The types of the events that a store has got. -/
def emittedSince (before after : Database) : List EventType :=
  (after.events.drop before.events.length).map EventRow.eventType

/-- A save of the publication, or something else that happens in the store. -/
inductive SaveStep (env : PublicationEnv) (merchantId : String) (title : Text) :
    History → History → Prop
  | draft {s : History} {payload : List (String × Json)} {c : Canonical} {db' : Database}
      {row : Publication} (publicationId eventId : String) (now : UtcClock)
      (haccept : acceptPayload env payload = .ok (c, .draft))
      (htitle : sameTitle c.title title = true)
      (hsave : upsertPublication env s.db merchantId c .draft publicationId eventId now =
        some (db', row)) :
      SaveStep env merchantId title s { s with db := db' }
  | publish {s : History} {payload : List (String × Json)} {c : Canonical} {db' : Database}
      {row : Publication} (publicationId eventId : String) (now : UtcClock)
      (haccept : acceptPayload env payload = .ok (c, .publish))
      (htitle : sameTitle c.title title = true)
      (hsave : upsertPublication env s.db merchantId c .publish publicationId eventId now =
        some (db', row)) :
      SaveStep env merchantId title s
        ⟨db', some (snapshotOf s.last c), s.publishes ++ [⟨s.last, c, emittedSince s.db db'⟩]⟩
  | other {s : History} {merchantId' : String} {c : Canonical} {action : Action} {db' : Database}
      {row : Publication} (publicationId eventId : String) (now : UtcClock)
      (hother : ¬ (merchantId' = merchantId ∧ sameTitle c.title title = true))
      (hsave : upsertPublication env s.db merchantId' c action publicationId eventId now =
        some (db', row)) :
      SaveStep env merchantId title s { s with db := db' }
  | view {s : History} (publicationId : String) :
      SaveStep env merchantId title s { s with db := recordPublicView s.db publicationId }

/-- The published row of the title is the snapshot published last, and each publish so far has
emitted what comparing its questions with none gives. -/
structure Tracks (env : PublicationEnv) (merchantId : String) (title : Text) (s : History) :
    Prop where
  keyed : Keyed s.db
  unpublished : s.last = none → snapshots s.db merchantId title = []
  published : ∀ snapshot, s.last = some snapshot → sameTitle snapshot.title title = true ∧
    Clean env snapshot ∧ ∃ p, snapshots s.db merchantId title = [p] ∧ Holds p snapshot
  publishes : ∀ p ∈ s.publishes, p.emitted = [comparedType p.last p.content]

/-- A step that leaves the snapshots and what is tracked. -/
theorem Tracks.of_snapshots {env : PublicationEnv} {merchantId : String} {title : Text}
    {s : History} {db' : Database} (h : Tracks env merchantId title s) (hkeys : Keyed db')
    (hsame : snapshots db' merchantId title = snapshots s.db merchantId title) :
    Tracks env merchantId title { s with db := db' } where
  keyed := hkeys
  unpublished hlast := hsame.trans (h.unpublished hlast)
  published snapshot hlast := by
    obtain ⟨htitle, hclean, p, hp, hholds⟩ := h.published snapshot hlast
    exact ⟨htitle, hclean, p, hsame.trans hp, hholds⟩
  publishes := h.publishes

/-- Counting a view keeps what the snapshots hold. -/
theorem Tracks.of_view {env : PublicationEnv} {merchantId : String} {title : Text} {s : History}
    (h : Tracks env merchantId title s) (publicationId : String) :
    Tracks env merchantId title { s with db := recordPublicView s.db publicationId } := by
  have hfilter : snapshots (recordPublicView s.db publicationId) merchantId title =
      Table.updateWhere (fun p => p.publicationId = publicationId)
        (fun p => { p with viewCount := p.viewCount + 1 }) (snapshots s.db merchantId title) :=
    Table.filter_updateWhere fun _ _ _ => rfl
  refine ⟨keyed_recordPublicView publicationId h.keyed, ?_, ?_, h.publishes⟩
  · intro hlast
    rw [hfilter, h.unpublished hlast]
    rfl
  · intro snapshot hlast
    obtain ⟨htitle, hclean, p, hp, hholds⟩ := h.published snapshot hlast
    let viewed : Publication :=
      if decide (p.publicationId = publicationId) then { p with viewCount := p.viewCount + 1 } else p
    refine ⟨htitle, hclean, viewed, ?_, ?_⟩
    · rw [hfilter, hp]
      rfl
    · show Holds (if _ then _ else _) snapshot
      split
      · exact ⟨hholds.1, hholds.2, hholds.3, hholds.4, hholds.5, hholds.6, hholds.7⟩
      · exact hholds

theorem emittedSince_append {before after : Database} {e : EventRow}
    (h : after.events = before.events ++ [e]) : emittedSince before after = [e.eventType] := by
  rw [emittedSince, h, List.drop_left]
  rfl

/-- What the step appends, next to what has been published before. -/
theorem publishes_append {publishes : List Publish} {p : Publish}
    (h : ∀ q ∈ publishes, q.emitted = [comparedType q.last q.content])
    (hp : p.emitted = [comparedType p.last p.content]) :
    ∀ q ∈ publishes ++ [p], q.emitted = [comparedType q.last q.content] := by
  rw [List.forall_mem_append]
  exact ⟨h, List.forall_mem_singleton.mpr hp⟩

/-- A publish tracks its own content. -/
theorem Tracks.of_publish {env : PublicationEnv} {merchantId : String} {title : Text} {s : History}
    {payload : List (String × Json)} {c : Canonical} {db' : Database} {row : Publication}
    {publicationId eventId : String} {now : UtcClock} (h : Tracks env merchantId title s)
    (haccept : acceptPayload env payload = .ok (c, .publish)) (htitle : sameTitle c.title title = true)
    (hsave : upsertPublication env s.db merchantId c .publish publicationId eventId now =
      some (db', row)) :
    Tracks env merchantId title
      ⟨db', some (snapshotOf s.last c), s.publishes ++ [⟨s.last, c, emittedSince s.db db'⟩]⟩ := by
  have hclean := clean_of_accepted haccept
  have hsame : ∀ db, snapshots db merchantId title = snapshots db merchantId c.title := fun db => by
    rw [snapshots, snapshots, isSnapshotOf_congr htitle]
  cases hlast : s.last with
  | none =>
    have hnone := h.unpublished hlast
    rw [hsame] at hnone
    obtain ⟨hone, hholds, e, hevents, htype⟩ := publish_first hnone hsave
    refine ⟨keyed_upsertPublication h.keyed hsave, fun hnone => (nomatch hnone), ?_, ?_⟩
    · intro snapshot hsnapshot
      rw [← Option.some.inj hsnapshot]
      exact ⟨htitle, hclean, row, (hsame db').trans hone, hholds⟩
    · apply publishes_append h.publishes
      rw [emittedSince_append hevents, htype]
      rfl
  | some snapshot =>
    obtain ⟨hsnapshotTitle, hsnapshotClean, p, hp, hpholds⟩ := h.published snapshot hlast
    rw [hsame] at hp
    obtain ⟨hone, hholds, e, hevents, htype⟩ := publish_again h.keyed hp hsave
    rw [hpholds.title] at hholds
    refine ⟨keyed_upsertPublication h.keyed hsave, fun hnone => (nomatch hnone), ?_, ?_⟩
    · intro next hnext
      rw [← Option.some.inj hnext]
      refine ⟨hsnapshotTitle, ⟨?_, hclean.shopUrl⟩, row, (hsame db').trans hone, hholds⟩
      -- the title is the one of the snapshot, the other texts are those of the content
      have htexts := hclean.texts
      have hsnapshotTexts := hsnapshotClean.texts
      simp only [List.forall_mem_cons] at htexts hsnapshotTexts ⊢
      exact ⟨htexts.1, hsnapshotTexts.2.1, htexts.2.2⟩
    · apply publishes_append h.publishes
      rw [emittedSince_append hevents, htype, publishEventType_of_holds hpholds hsnapshotClean]

theorem tracks_preserved (env : PublicationEnv) (merchantId : String) (title : Text) :
    Preserves (SaveStep env merchantId title) (Tracks env merchantId title) := by
  intro s t hstep h
  cases hstep with
  | draft publicationId eventId now haccept htitle hsave =>
    exact h.of_snapshots (keyed_upsertPublication h.keyed hsave)
      (snapshots_draft h.keyed hsave merchantId title)
  | publish publicationId eventId now haccept htitle hsave =>
    exact h.of_publish haccept htitle hsave
  | @other merchantId' c action db' row publicationId eventId now hother hsave =>
    apply h.of_snapshots (keyed_upsertPublication h.keyed hsave)
    cases action with
    | draft => exact snapshots_draft h.keyed hsave merchantId title
    | publish => exact snapshots_publish_other h.keyed hsave hother
  | view publicationId => exact h.of_view publicationId

theorem tracks_of_unpublished {env : PublicationEnv} {merchantId : String} {title : Text}
    {s : History} (h : Unpublished merchantId title s) : Tracks env merchantId title s := by
  obtain ⟨hkeys, hlast, hpublishes, hdrafts⟩ := h
  refine ⟨hkeys, ?_, ?_, ?_⟩
  · intro _
    apply List.filter_eq_nil_iff.mpr
    intro p hp hsnapshot
    obtain ⟨hmerchant, htitle, hstatus⟩ := isSnapshotOf_iff.mp hsnapshot
    rw [hdrafts p hp hmerchant htitle] at hstatus
    cases hstatus
  · intro snapshot hsome
    rw [hlast] at hsome
    cases hsome
  · rw [hpublishes]
    intro p hp
    cases hp

/-- Every publish emits one event, and its type is the right one exactly if comparing the questions
with none gives what comparing them with the last ones gives. -/
theorem event_type_iff {env : PublicationEnv} {merchantId : String} {title : Text} {s : History}
    (h : Reachable (Unpublished merchantId title) (SaveStep env merchantId title) s) :
    ∀ p ∈ s.publishes, p.emitted = [eventTypeAfter p.last p.content] ↔
      FaqCompares p.last p.content := by
  have htracks : Tracks env merchantId title s :=
    reachable_invariant (fun _ => tracks_of_unpublished) (tracks_preserved env merchantId title) h
  intro p hp
  rw [htracks.publishes p hp, List.cons.injEq, ← comparedType_eq_iff]
  exact and_iff_left rfl

/-! ## 5. A pump that is published twice -/

def pumpEnv : PublicationEnv := plainEnv .null

def pumpAdded : EventRow :=
  ⟨"e1", "m1", "p1", .productAdded, 1,
    String.ofList (encodeJson pumpEnv.codec
      (eventPayload pumpEnv firstClock (pumpRow [sparesQuestion]))), firstClock.text⟩

def pumpStore : Database := ⟨[pumpRow [sparesQuestion]], [pumpAdded]⟩

theorem publish_pump :
    upsertPublication pumpEnv ⟨[], []⟩ "m1" (pump [sparesQuestion]) .publish "p1" "e1" firstClock =
      some (pumpStore, pumpRow [sparesQuestion]) := by
  unfold upsertPublication findByMerchantTitle
  simp only [List.filter_nil, List.mergeSort_nil, List.head?_nil]
  rfl

def secondClock : UtcClock := ⟨1, by decide⟩

theorem stamp_second :
    Feed.nextVersionAndTimestamp [pumpAdded] "m1" secondClock = some (2, secondClock.text) := by
  decide +kernel

/-- The event of a second publish is emitted. -/
theorem emitFor_second (env : PublicationEnv) (rows : List Publication) (row : Publication)
    (hmerchant : row.merchantId = "m1") (eventType : EventType) :
    ∃ db', emitFor env ⟨rows, [pumpAdded]⟩ row "e2" eventType secondClock = some db' := by
  unfold emitFor Feed.emitPublicEvent
  rw [hmerchant, stamp_second]
  exact ⟨_, rfl⟩

theorem republish_pump (faq : List FaqItem) :
    ∃ db', upsertPublication pumpEnv pumpStore "m1" (pump faq) .publish "p2" "e2" secondClock =
      some (db', refreshedRow pumpEnv (pump faq) .publish secondClock (pumpRow [sparesQuestion])) := by
  have hone : snapshots pumpStore "m1" (pump faq).title = [pumpRow [sparesQuestion]] := rfl
  have hfind : findByMerchantTitle pumpStore "m1" (pump faq).title .published =
      some (pumpRow [sparesQuestion]) := by
    rw [findByMerchantTitle_published_eq, hone, List.mergeSort_singleton]
    rfl
  obtain ⟨db', hemit⟩ := emitFor_second pumpEnv
    (writeRow pumpStore (refreshedRow pumpEnv (pump faq) .publish secondClock
      (pumpRow [sparesQuestion]))).publications
    (refreshedRow pumpEnv (pump faq) .publish secondClock (pumpRow [sparesQuestion])) rfl
    (publishEventType (some (rowToPublication pumpEnv (pumpRow [sparesQuestion]))) (pump faq))
  refine ⟨db', ?_⟩
  unfold upsertPublication
  simp only [reduceCtorEq, if_false, hfind]
  show (publishedEvent _ _ _ _ _ _ _).map _ = _
  rw [publishedEvent, if_pos rfl]
  exact congrArg (Option.map _) hemit

/-- A second publish of the pump follows the one with the question on spares. -/
theorem reachable_republished {faq : List FaqItem}
    (haccept : acceptPayload pumpEnv (pumpPayload faq) = .ok (pump faq, .publish)) :
    ∃ s, Reachable (Unpublished "m1" "Pump".toList) (SaveStep pumpEnv "m1" "Pump".toList) s ∧
      ∃ p ∈ s.publishes, p.last = some (pump [sparesQuestion]) ∧ p.content = pump faq := by
  have hempty : Unpublished "m1" "Pump".toList ⟨⟨[], []⟩, none, []⟩ :=
    ⟨List.nodup_nil, rfl, rfl, fun p hp => nomatch hp⟩
  have hfirst : acceptPayload pumpEnv (pumpPayload [sparesQuestion]) =
      .ok (pump [sparesQuestion], .publish) := rfl
  obtain ⟨db', hsecond⟩ := republish_pump faq
  have hpublished := reachable_step (reachable_init hempty)
    (SaveStep.publish "p1" "e1" firstClock hfirst (sameTitle_iff.mpr rfl) publish_pump)
  have hrepublished := reachable_step hpublished
    (SaveStep.publish "p2" "e2" secondClock haccept (sameTitle_iff.mpr rfl) hsecond)
  exact ⟨_, hrepublished, _, List.mem_append_right _ (List.mem_singleton_self _), rfl, rfl⟩

def warrantyQuestion : FaqItem := ⟨"Warranty?".toList, "Yes".toList⟩

/-- A new question is announced as one. -/
theorem event_type_iff_new_question :
    ∃ s, Reachable (Unpublished "m1" "Pump".toList) (SaveStep pumpEnv "m1" "Pump".toList) s ∧
      ∃ p ∈ s.publishes, p.emitted = [.faqUpdated] := by
  have haccept : acceptPayload pumpEnv (pumpPayload [warrantyQuestion]) =
      .ok (pump [warrantyQuestion], .publish) := rfl
  obtain ⟨s, hs, p, hp, hlast, hcontent⟩ := reachable_republished haccept
  have hcompares : FaqCompares p.last p.content := by
    rw [hlast, hcontent]
    exact .inr (.inr (by decide))
  refine ⟨s, hs, p, hp, ?_⟩
  rw [(event_type_iff hs p hp).mpr hcompares, hlast, hcontent]
  rfl

/-- The pump published again as it was is announced as a change of its questions. -/
theorem unchanged_announced_as_faq :
    ¬ ∀ (env : PublicationEnv) (merchantId : String) (title : Text) (s : History),
      Reachable (Unpublished merchantId title) (SaveStep env merchantId title) s →
        ∀ p ∈ s.publishes, p.emitted = [eventTypeAfter p.last p.content] := by
  intro hall
  have haccept : acceptPayload pumpEnv (pumpPayload [sparesQuestion]) =
      .ok (pump [sparesQuestion], .publish) := rfl
  obtain ⟨s, hs, p, hp, hlast, hcontent⟩ := reachable_republished haccept
  have htracks : Tracks pumpEnv "m1" "Pump".toList s :=
    reachable_invariant (fun _ => tracks_of_unpublished) (tracks_preserved _ _ _) hs
  have hemitted := hall pumpEnv "m1" "Pump".toList s hs p hp
  rw [htracks.publishes p hp, hlast, hcontent] at hemitted
  have hsame : comparedType (some (pump [sparesQuestion])) (pump [sparesQuestion]) =
      eventTypeAfter (some (pump [sparesQuestion])) (pump [sparesQuestion]) :=
    List.head_eq_of_cons_eq hemitted
  revert hsame
  decide

end KiwiCatalog.Publications
