import KiwiCatalog.Listings.ShareCodeAgreement
import KiwiCatalog.Publications.SanitisedLinks

/-!
# Sanitised texts — what is left when share codes have been taken out

A text is emptied where it is a refused link as a whole; else each refused link in it is replaced.
Readers may refuse the new text still: it may be too long, a link may lose the bracket of its host,
and a web address may fail with the placeholder in it.  Links are looked at as they stand on one
side and without the punctuation at their ends on the other.
-/

set_option autoImplicit false

namespace KiwiCatalog.Publications

open Listings (containsShareCodePayload containsShareCodeUrl_nil sanitizeShareCodeText
  sanitizeShareCodeText_eq_self sanitizeShareCodeUrls)
open Url (Text)

/-! ## 1. One text -/

/-- Readers do not refuse what is left of the text. -/
def staysClear (env : TextEnv) (text : Text) : Bool :=
  containsShareCodeUrl env text ||
    (decide ((maskLinks env text).length ≤ maxShareCodeTextLength) &&
      (textUrlRe.findall text).all (fun m => containsShareCodeUrl env m || !losesBracket m) &&
        linkFits env text)

section

variable {env : TextEnv} {text : Text}

theorem sanitize_of_refused (h : containsShareCodeUrl env text = true) :
    sanitizeShareCodeText env text = [] := by
  rw [sanitizeShareCodeText, if_pos h]

theorem sanitize_of_passes (h : containsShareCodeUrl env text = false) :
    sanitizeShareCodeText env text = redactShareCodeText env text := by
  rw [sanitizeShareCodeText, h, if_neg Bool.false_ne_true]

theorem length_redact (env : TextEnv) (text : Text) :
    (redactShareCodeText env text).length = (maskLinks env text).length := by
  obtain ⟨cells, -, hfill⟩ := exists_holed env text
  unfold maskLinks
  rw [redact_eq_replaceLinks, hfill, hfill]
  exact (same_fill cells).length

/-- The links of a text without the punctuation at their ends. -/
theorem textUrls_clear_iff {links : List Text} :
    (((links.map withoutTrailing).filter fun url => !url.isEmpty).any (containsShareCodeUrl env)) =
      false ↔ ∀ m ∈ links, containsShareCodeUrl env (withoutTrailing m) = false := by
  rw [List.any_eq_false]
  constructor
  · intro h m hm
    cases hurl : withoutTrailing m with
    | nil => exact containsShareCodeUrl_nil env
    | cons c rest =>
      apply Bool.eq_false_iff.mpr
      apply h
      rw [List.mem_filter]
      refine ⟨List.mem_map.mpr ⟨m, hm, hurl⟩, ?_⟩
      rfl
  · intro h url hurl
    obtain ⟨m, hm, rfl⟩ := List.mem_map.mp (List.mem_filter.mp hurl).1
    exact Bool.eq_false_iff.mp (h m hm)

theorem containsShareCodeLink_iff : containsShareCodeLink env text = false ↔
    text.length ≤ maxShareCodeTextLength ∧ containsShareCodeUrl env text = false ∧
      ∀ m ∈ textUrlRe.findall text, containsShareCodeUrl env (withoutTrailing m) = false := by
  unfold containsShareCodeLink textUrls
  rw [Bool.or_eq_false_iff, Bool.or_eq_false_iff, textUrls_clear_iff, and_assoc,
    decide_eq_false_iff_not, Nat.not_lt]

/-- Of the links that are left, those pass that keep their bracket. -/
theorem links_clear_iff : (∀ m ∈ textUrlRe.findall (redactShareCodeText env text),
      containsShareCodeUrl env (withoutTrailing m) = false) ↔
    ∀ m ∈ textUrlRe.findall text, containsShareCodeUrl env m = true ∨ losesBracket m = false := by
  rw [findall_redact]
  constructor
  · intro h m hm
    cases hrefused : containsShareCodeUrl env m with
    | true => exact .inl rfl
    | false =>
      right
      rw [← containsShareCodeUrl_withoutTrailing (urlChar_of_findall hm) hrefused]
      apply h
      rw [List.mem_filter, hrefused]
      exact ⟨hm, rfl⟩
  · intro h m hm
    obtain ⟨hm, hkept⟩ := List.mem_filter.mp hm
    have hpass : containsShareCodeUrl env m = false := by simpa using hkept
    rw [containsShareCodeUrl_withoutTrailing (urlChar_of_findall hm) hpass]
    rcases h m hm with hrefused | hkeeps
    · rw [hpass] at hrefused
      cases hrefused
    · exact hkeeps

theorem containsShareCodeLink_sanitize_iff :
    containsShareCodeLink env (sanitizeShareCodeText env text) = false ↔
      staysClear env text = true := by
  unfold staysClear
  cases hwhole : containsShareCodeUrl env text with
  | true =>
    rw [sanitize_of_refused hwhole]
    exact ⟨fun _ => rfl, fun _ => rfl⟩
  | false =>
    rw [sanitize_of_passes hwhole, containsShareCodeLink_iff, length_redact, links_clear_iff,
      containsShareCodeUrl_redact hwhole, Bool.false_or, Bool.and_eq_true, Bool.and_eq_true,
      List.all_eq_true, decide_eq_true_eq, and_assoc]
    simp only [Bool.or_eq_true, Bool.not_eq_true']
    apply and_congr_right
    intro _
    exact and_comm

/-- What readers do not refuse any more is not changed any more. -/
theorem sanitize_sanitize (h : staysClear env text = true) :
    sanitizeShareCodeText env (sanitizeShareCodeText env text) =
      sanitizeShareCodeText env text := by
  have hclear := containsShareCodeLink_iff.mp (containsShareCodeLink_sanitize_iff.mpr h)
  rw [sanitize_of_passes hclear.2.1]
  cases hwhole : containsShareCodeUrl env text with
  | true =>
    rw [sanitize_of_refused hwhole]
    rfl
  | false =>
    rw [sanitize_of_passes hwhole]
    apply Pattern.sub_eq_self
    intro m hm
    rw [findall_redact, List.mem_filter] at hm
    have hpass : containsShareCodeUrl env m = false := by simpa using hm.2
    rw [hpass, if_neg Bool.false_ne_true]

/-- A text that readers do not refuse stays as it is if no link passes for its end alone. -/
theorem sanitize_eq_self_iff (h : containsShareCodeLink env text = false) :
    sanitizeShareCodeText env text = text ↔ ∀ m ∈ textUrlRe.findall text,
      containsShareCodeUrl env m = true → containsShareCodeUrl env (withoutTrailing m) = true := by
  obtain ⟨-, hwhole, hlinks⟩ := containsShareCodeLink_iff.mp h
  constructor
  · intro hsame m hm hrefused
    rw [(sanitizeShareCodeText_eq_self hsame).2 m hm] at hrefused
    cases hrefused
  · intro hends
    rw [sanitize_of_passes hwhole]
    apply Pattern.sub_eq_self
    intro m hm
    cases hrefused : containsShareCodeUrl env m with
    | true =>
      have hcut := hends m hm hrefused
      rw [hlinks m hm] at hcut
      cases hcut
    | false => rw [if_neg Bool.false_ne_true]

end

/-! ## 2. A JSON value -/

theorem containsShareCodePayload_iff {env : TextEnv} {value : Json} :
    containsShareCodePayload env value = false ↔
      ∀ s ∈ value.texts, containsShareCodeLink env s = false := by
  unfold containsShareCodePayload
  rw [List.any_eq_false]
  constructor
  · exact fun h s hs => Bool.eq_false_iff.mpr (h s hs)
  · exact fun h s hs => Bool.eq_false_iff.mp (h s hs)

theorem sanitized_clear_iff {env : TextEnv} {value : Json} :
    containsShareCodePayload env (sanitizeShareCodeUrls env value) = false ↔
      ∀ s ∈ value.texts, staysClear env s = true := by
  rw [containsShareCodePayload_iff, Json.texts_mapText, List.forall_mem_map]
  constructor
  · exact fun h s hs => containsShareCodeLink_sanitize_iff.mp (h s hs)
  · exact fun h s hs => containsShareCodeLink_sanitize_iff.mpr (h s hs)

theorem sanitized_sanitize {env : TextEnv} {value : Json}
    (h : ∀ s ∈ value.texts, staysClear env s = true) :
    sanitizeShareCodeUrls env (sanitizeShareCodeUrls env value) =
      sanitizeShareCodeUrls env value := by
  apply (Json.mapText_eq_self _ _).mpr
  rw [Json.texts_mapText, List.forall_mem_map]
  exact fun s hs => sanitize_sanitize (h s hs)

/-- Readers refuse the value as it is, or they refuse each link without the punctuation at its end
that is refused with it. -/
def endsAgree (env : TextEnv) (value : Json) : Prop :=
  containsShareCodePayload env value = true ∨
    ∀ s ∈ value.texts, ∀ m ∈ textUrlRe.findall s,
      containsShareCodeUrl env m = true → containsShareCodeUrl env (withoutTrailing m) = true

theorem sanitize_clear_iff {env : TextEnv} {value : Json} :
    (containsShareCodePayload env value = false → sanitizeShareCodeUrls env value = value) ↔
      endsAgree env value := by
  unfold endsAgree
  cases hrefused : containsShareCodePayload env value with
  | true =>
    constructor
    · exact fun _ => .inl rfl
    · intro _ h
      cases h
  | false =>
    have hlinks := containsShareCodePayload_iff.mp hrefused
    rw [Json.mapText_eq_self]
    constructor
    · intro h
      right
      exact fun s hs => (sanitize_eq_self_iff (hlinks s hs)).mp (h rfl s hs)
    · rintro (hcontra | hends) _
      · cases hcontra
      · exact fun s hs => (sanitize_eq_self_iff (hlinks s hs)).mpr (hends s hs)

/-- The sanitiser takes out what readers refuse, once for all and no more, exactly if readers refuse
nothing of what is left of any text, and no link is refused for the punctuation at its end alone. -/
theorem sanitising_complete_iff (env : TextEnv) (value : Json) :
    (containsShareCodePayload env (sanitizeShareCodeUrls env value) = false ∧
      sanitizeShareCodeUrls env (sanitizeShareCodeUrls env value) =
        sanitizeShareCodeUrls env value ∧
      (containsShareCodePayload env value = false → sanitizeShareCodeUrls env value = value)) ↔
    (∀ s ∈ value.texts, staysClear env s = true) ∧ endsAgree env value := by
  rw [sanitized_clear_iff, sanitize_clear_iff]
  constructor
  · exact fun h => ⟨h.1, h.2.2⟩
  · exact fun h => ⟨h.1, sanitized_sanitize h.1, h.2⟩

/-- A link that loses its bracket is left and refused, a placeholder in an authority is refused the
second time, and a link in brackets is replaced although no reader refuses it. -/
theorem sanitising_incomplete :
    containsShareCodePayload asciiEnv
        (sanitizeShareCodeUrls asciiEnv (.text "see http://[::1] ok".toList)) = true ∧
      sanitizeShareCodeUrls asciiEnv
          (sanitizeShareCodeUrls asciiEnv (.text "http://ok http://u:p@h".toList)) ≠
        sanitizeShareCodeUrls asciiEnv (.text "http://ok http://u:p@h".toList) ∧
      containsShareCodePayload asciiEnv (.text "[http://x.cn]".toList) = false ∧
      sanitizeShareCodeUrls asciiEnv (.text "[http://x.cn]".toList) ≠
        .text "[http://x.cn]".toList := by
  decide +kernel

end KiwiCatalog.Publications
