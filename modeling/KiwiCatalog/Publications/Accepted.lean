import KiwiCatalog.Publications.Store

/-!
# Accepted texts — sanitising leaves what the scans let through

The scans look for what the sanitising replaces, in the same texts and with the same patterns.
-/

set_option autoImplicit false

namespace KiwiCatalog.Publications

open Checks (check_bind)
open IsoText (UtcClock)
open Url (Text)

theorem redactUnsafeTextLinks_of_safe {env : TextEnv} {text : Text}
    (h : hasUnsafeLink env text = false) : redactUnsafeTextLinks env text = text := by
  apply Pattern.sub_eq_self
  intro raw hraw
  by_cases hempty : (withoutTrailing raw).isEmpty = true
  · rw [hempty, Bool.true_or, if_pos rfl]
  · have hurl : withoutTrailing raw ∈ textUrls text := by
      apply List.mem_filter.mpr
      exact ⟨List.mem_map_of_mem hraw, by simpa using hempty⟩
    have hsafe : isSafeLink env (withoutTrailing raw) = true := by
      by_contra hnot
      have hfound : hasUnsafeLink env text = true :=
        List.any_eq_true.mpr ⟨_, hurl, by simpa using hnot⟩
      rw [h] at hfound
      cases hfound
    rw [hsafe, Bool.or_true, if_pos rfl]

/-- A text that no scan hits is its own redaction. -/
theorem redactPublicText_of_unhit {env : TextEnv} {text : Text}
    (hprivate : isPrivateText env text = false) (hlinks : hasUnsafeLink env text = false) :
    redactPublicText env text = text := by
  unfold isPrivateText at hprivate
  rw [Bool.or_eq_false_iff, Bool.or_eq_false_iff] at hprivate
  unfold redactPublicText
  rw [redactUnsafeTextLinks_of_safe hlinks, Pattern.sub_of_not_search hprivate.1.1,
    Pattern.sub_of_not_search hprivate.1.2, Pattern.sub_of_not_search hprivate.2]

theorem scan_eq_nil {hit : Text → Bool} {c : Canonical} (h : (scan hit c).isEmpty = true) :
    ∀ pair ∈ publicTextPairs c, hit pair.2 = false := by
  intro pair hpair
  by_contra hhit
  have hmem : pair.1 ∈ scan hit c := by
    apply List.mem_map_of_mem
    exact List.mem_filter.mpr ⟨hpair, by simpa using hhit⟩
  rw [List.isEmpty_iff.mp h] at hmem
  cases hmem

/-- What the write path accepts has passed its validation and both scans. -/
theorem acceptPayload_ok {env : PublicationEnv} {payload : List (String × Json)} {c : Canonical}
    {action : Action} (h : acceptPayload env payload = .ok (c, action)) :
    validatePayload env payload = .ok (c, action) ∧
      ∀ pair ∈ publicTextPairs c, redactPublicText env.text pair.2 = pair.2 := by
  unfold acceptPayload at h
  obtain ⟨⟨c', action'⟩, hvalid, h⟩ := Checks.bind_eq_ok h
  obtain ⟨hprivate, h⟩ := check_bind h
  obtain ⟨hlinks, h⟩ := check_bind h
  obtain ⟨rfl, rfl⟩ := Prod.mk.inj (Except.ok.inj h)
  refine ⟨hvalid, ?_⟩
  intro pair hpair
  exact redactPublicText_of_unhit (scan_eq_nil hprivate pair hpair) (scan_eq_nil hlinks pair hpair)

theorem mem_faqTextPairs {items : List FaqItem} {item : FaqItem} (h : item ∈ items) (i : Nat) :
    (∃ label, (label, item.question) ∈ faqTextPairs i items) ∧
      ∃ label, (label, item.answer) ∈ faqTextPairs i items := by
  induction items generalizing i with
  | nil => cases h
  | cons first rest ih =>
    rcases List.mem_cons.mp h with rfl | hmem
    · exact ⟨⟨_, List.mem_cons_self⟩, ⟨_, List.mem_cons_of_mem _ List.mem_cons_self⟩⟩
    · obtain ⟨⟨q, hq⟩, a, ha⟩ := ih hmem (i + 1)
      exact ⟨⟨q, List.mem_cons_of_mem _ (List.mem_cons_of_mem _ hq)⟩,
        ⟨a, List.mem_cons_of_mem _ (List.mem_cons_of_mem _ ha)⟩⟩

/-- Redaction keeps the questions and answers of an accepted payload. -/
theorem redacted_of_accepted {env : PublicationEnv} {payload : List (String × Json)}
    {c : Canonical} {action : Action} (h : acceptPayload env payload = .ok (c, action)) :
    c.faq.map (FaqItem.redacted env.text) = c.faq := by
  have hunchanged := (acceptPayload_ok h).2
  refine (List.map_congr_left fun item hitem => ?_).trans (List.map_id _)
  obtain ⟨⟨q, hq⟩, a, ha⟩ := mem_faqTextPairs hitem 0
  have hquestion := hunchanged _ (List.mem_append_right _ hq)
  have hanswer := hunchanged _ (List.mem_append_right _ ha)
  simp only at hquestion hanswer
  unfold FaqItem.redacted
  rw [hquestion, hanswer]
  rfl

/-! ## The projection of an accepted payload -/

/-- The texts of a row under their keys, in the order of `publicTextFields`. -/
def Publication.texts (row : Publication) : List Text :=
  [row.merchantDisplayName, row.title, row.category, row.summary, row.shopPlatform]

/-- The same fields of the sanitised projection of the row. -/
def shownTexts (env : PublicationEnv) (now : Text) (row : Publication) : List (Option Json) :=
  match sanitizePublicPayload env (publicProjection env now (rowToPublication env row)).json with
  | .object fields => publicTextFields.map fun key => Json.field key fields
  | _ => []

/-- The keys of an object stay as they are sanitised. -/
theorem sanitizePublicFields_cons (env : PublicationEnv) (key : String) (v : Json)
    (rest : List (String × Json)) :
    ∃ cleaned, sanitizePublicFields env ((key, v) :: rest) =
      (key, cleaned) :: sanitizePublicFields env rest := by
  cases v <;> exact ⟨_, by simp only [sanitizePublicFields]; rfl⟩

/-- A public text under its key is redacted. -/
theorem field_sanitize_publicText (env : PublicationEnv) {fields : List (String × Json)}
    {key : String} {s : Text} (hkey : key ∈ publicTextFields)
    (h : Json.field key fields = some (.text s)) :
    Json.field key (sanitizePublicFields env fields) =
      some (.text (redactPublicText env.text s)) := by
  have hurl : key ≠ "shop_url" := by
    rintro rfl
    exact absurd hkey (by decide)
  induction fields with
  | nil => cases h
  | cons kv rest ih =>
    obtain ⟨k, v⟩ := kv
    change (if k = key then some v else Json.field key rest) = _ at h
    split at h
    · rename_i hk
      subst hk
      obtain rfl := Option.some.inj h
      rw [sanitizePublicFields]
      show (if k = k then _ else _) = _
      rw [if_pos rfl, if_neg hurl, List.contains_iff_mem.mpr hkey, Bool.or_true, if_pos rfl]
    · rename_i hk
      obtain ⟨cleaned, hcons⟩ := sanitizePublicFields_cons env k v rest
      rw [hcons]
      show (if k = key then some cleaned else _) = _
      rw [if_neg hk]
      exact ih h

theorem shownTexts_of_fixed {env : PublicationEnv} {row : Publication}
    (h : ∀ s ∈ row.texts, redactPublicText env.text s = s) (now : Text) :
    shownTexts env now row = row.texts.map fun s => some (.text s) := by
  simp only [Publication.texts, List.forall_mem_cons] at h
  obtain ⟨hname, htitle, hcategory, hsummary, hplatform, -⟩ := h
  unfold shownTexts PublicView.json
  rw [sanitizePublicPayload]
  simp only [publicTextFields, List.map_cons, List.map_nil, Publication.texts]
  rw [field_sanitize_publicText env (by decide) rfl, field_sanitize_publicText env (by decide) rfl,
    field_sanitize_publicText env (by decide) rfl, field_sanitize_publicText env (by decide) rfl,
    field_sanitize_publicText env (by decide) rfl]
  simp only [publicProjection, rowToPublication, hname, htitle, hcategory, hsummary, hplatform]

/-- A payload is shown as it was accepted. -/
structure ShownUnchanged (env : PublicationEnv) (c : Canonical) (action : Action) : Prop where
  texts : ∀ (publicationId merchantId : String) (saved : UtcClock) (now : Text),
    let row := newRow env publicationId merchantId c action saved
    shownTexts env now row = row.texts.map fun s => some (.text s)
  scanned : ∀ pair ∈ publicTextPairs c, redactPublicText env.text pair.2 = pair.2
  faq : c.faq.map (FaqItem.redacted env.text) = c.faq

theorem shownUnchanged_of_accepted {env : PublicationEnv} {payload : List (String × Json)}
    {c : Canonical} {action : Action} (h : acceptPayload env payload = .ok (c, action)) :
    ShownUnchanged env c action := by
  have hunchanged := (acceptPayload_ok h).2
  constructor
  · intro publicationId merchantId saved now
    apply shownTexts_of_fixed
    intro s hs
    simp only [publicTextPairs, List.forall_mem_append, List.forall_mem_cons] at hunchanged
    obtain ⟨⟨hname, htitle, hcategory, hsummary, hplatform, -⟩, -⟩ := hunchanged
    simp only [Publication.texts, newRow, List.mem_cons, List.not_mem_nil, or_false] at hs
    rcases hs with rfl | rfl | rfl | rfl | rfl
    · exact hname
    · exact htitle
    · exact hcategory
    · exact hsummary
    · exact hplatform
  · exact hunchanged
  · exact redacted_of_accepted h

end KiwiCatalog.Publications
