/-
`MetadataSuggestionService`: the metadata that is filled in beforehand when a
document is uploaded, with a score for each part that is suggested.

Scores are the doubles that the source writes, as the numbers they are; the
threshold is any of them.
-/
import Mathlib
import ProjectAgent.Identifiers.Extractor
import ProjectAgent.Lib.Double

namespace ProjectAgent.Documents.Metadata

open Identifiers (Python alnum boundary digits dotDigits oneOf space word)
open Matching (Pattern Regex Word)
open Matching.Regex (opt plus upTo all)
open Double (double)

structure ExistingDocumentVersion where
  versionId : UUID
  documentCategory : String
  lifecycleStatus : String

structure MetadataSuggestionInput where
  projectId : UUID
  projectCode : String
  filename : String
  previewText : String
  existingVersions : List ExistingDocumentVersion

structure MetadataSuggestion where
  projectId : Option UUID
  documentCategory : Option String
  versionLabel : Option String
  authorityLevel : Option String
  supersedesVersionId : Option UUID
  confidence : ℚ
  evidence : List String

structure CategoryRule where
  category : String
  keywords : List String
  authority : String

/-- `_CATEGORY_RULES`. -/
def categoryRules : List CategoryRule :=
  [⟨"requirement_baseline", ["requirement", "requirements", "需求", "需求规格"], "requirement_baseline"⟩,
    ⟨"api_specification", ["api", "接口", "openapi"], "approved_design"⟩,
    ⟨"database_design", ["database", "db", "数据库", "数据字典"], "approved_design"⟩,
    ⟨"approved_test_spec", ["test", "uat", "验收", "测试"], "approved_test_spec"⟩,
    ⟨"release_runbook", ["release", "deploy", "deployment", "上线", "部署"], "release_runbook"⟩,
    ⟨"approved_meeting_minutes", ["meeting", "minutes", "会议纪要", "会议"], "approved_meeting_minutes"⟩,
    ⟨"issue_record", ["issue", "bug", "故障", "问题记录"], "issue_record"⟩]

/-- `\d+(?:\.\d+){1,3}(?:[-_][a-z0-9]+)?`, case ignored. -/
def versionNumber (py : Python) : Regex Char :=
  all [digits py, upTo (dotDigits py) 2, opt (.seq (oneOf ['-', '_']) (plus alnum))]

/-- `_VERSION_RE`. -/
def versionRe (py : Python) : Pattern Char where
  pre := opt (.alt (all [boundary py, word "v", opt (word "ersion"), .star space])
    (.seq (word "版本") (.star space)))
  group := versionNumber py
  post := .empty

/-- `match.group(1)` of the first match. -/
def tokenIn (py : Python) (text : String) : Option String :=
  ((versionRe py).finditer text.toList).head?.map String.ofList

/-- `part in text`. -/
def occurs (part text : String) : Bool := decide (part.toList <:+: text.toList)

section Suggest

variable (py : Python) (casefold : String → String) (threshold : ℚ)
  (request : MetadataSuggestionInput)

def projectScore : ℚ :=
  if occurs (casefold request.projectCode)
    (casefold request.filename ++ "\n" ++ casefold request.previewText) then double (95 / 100)
  else 0

def categoryScore (rule : CategoryRule) : ℚ :=
  let matchedFilename := rule.keywords.any fun keyword =>
    occurs (casefold keyword) (casefold request.filename)
  let matchedPreview := rule.keywords.any fun keyword =>
    occurs (casefold keyword) (casefold request.previewText)
  if matchedFilename && matchedPreview then double (95 / 100)
  else if matchedFilename then double (84 / 100)
  else if matchedPreview then double (76 / 100)
  else 0

/-- The rule whose category and authority are suggested, and `best_category_score`. -/
structure Best where
  rule : Option CategoryRule
  score : ℚ

/-- One round of the loop over the rules. -/
def consider (score : CategoryRule → ℚ) (best : Best) (rule : CategoryRule) : Best :=
  if best.score < score rule then ⟨if threshold ≤ score rule then some rule
    else best.rule, score rule⟩ else best

def inferCategory (score : CategoryRule → ℚ) (rules : List CategoryRule) : Best :=
  rules.foldl (consider threshold score) ⟨none, 0⟩

def bestCategory : Best := inferCategory threshold (categoryScore casefold request) categoryRules

/-- The label and its score. -/
def versionFound : Option (String × ℚ) :=
  match tokenIn py request.filename with
  | some token =>
    if threshold ≤ double (95 / 100) then some ("v" ++ token, double (95 / 100)) else none
  | none =>
    match tokenIn py request.previewText with
    | some token =>
      if threshold ≤ double (80 / 100) then some ("v" ++ token, double (80 / 100)) else none
    | none => none

/-- The published versions of a category. -/
def published (category : String) : List ExistingDocumentVersion :=
  request.existingVersions.filter fun version => version.documentCategory = category ∧
    version.lifecycleStatus = "PUBLISHED"

/-- The category, and its single published version. -/
def superseded : Option (String × UUID) :=
  match (bestCategory casefold threshold request).rule with
  | none => none
  | some rule =>
    match published request rule.category with
    | [version] => some (rule.category, version.versionId)
    | _ => none

/-- What is appended to `evidence`, each with what is appended to `scores`. -/
def findings : List (String × ℚ) :=
  (if threshold ≤ projectScore casefold request then
    [("project code " ++ request.projectCode ++ " found in source text",
      projectScore casefold request)] else []) ++
  ((bestCategory casefold threshold request).rule.toList.map fun rule =>
    ("document category inferred as " ++ rule.category,
      (bestCategory casefold threshold request).score)) ++
  ((versionFound py threshold request).toList.map fun version =>
    ("version token " ++ version.1 ++ " found", version.2)) ++
  (superseded casefold threshold request).toList.map fun version =>
    ("single current published " ++ version.1 ++ " version found", double (90 / 100))

/-- `min(scores) if scores else 0.0`. -/
def minScore : List ℚ → ℚ
  | [] => 0
  | score :: scores => scores.foldl min score

def suggest : MetadataSuggestion where
  projectId := if threshold ≤ projectScore casefold request then some request.projectId else none
  documentCategory := (bestCategory casefold threshold request).rule.map (·.category)
  versionLabel := (versionFound py threshold request).map (·.1)
  authorityLevel := (bestCategory casefold threshold request).rule.map (·.authority)
  supersedesVersionId := (superseded casefold threshold request).map (·.2)
  confidence := minScore ((findings py casefold threshold request).map (·.2))
  evidence := (findings py casefold threshold request).map (·.1)

end Suggest

/-! ## The loop over the rules -/

variable {py : Python} {casefold : String → String} {threshold : ℚ}
  {request : MetadataSuggestionInput}
  {score : CategoryRule → ℚ} {rules : List CategoryRule} {best : Best}

/-- The first of the rules with the largest score, which is positive and not below the threshold. -/
def Chosen (threshold : ℚ) (score : CategoryRule → ℚ) (rules : List CategoryRule)
    (rule : CategoryRule) : Prop :=
  ∃ before after, rules = before ++ rule :: after ∧ 0 < score rule ∧ threshold ≤ score rule ∧
    (∀ other ∈ before, score other < score rule) ∧ ∀ other ∈ after, score other ≤ score rule

/-- What holds of `best` when these rules have been considered. -/
structure Best.Of (threshold : ℚ) (score : CategoryRule → ℚ) (rules : List CategoryRule)
    (best : Best) : Prop where
  nonneg : 0 ≤ best.score
  largest : ∀ rule ∈ rules, score rule ≤ best.score
  chosen : ∀ rule, best.rule = some rule → Chosen threshold score rules rule ∧
    score rule = best.score
  missing : best.rule = none → best.score = 0 ∨ best.score < threshold

theorem Best.Of.consider (h : best.Of threshold score rules) (rule : CategoryRule) :
    (Metadata.consider threshold score best rule).Of threshold score (rules ++ [rule]) := by
  unfold Metadata.consider
  by_cases hlarger : best.score < score rule
  · rw [if_pos hlarger]
    have hlargest (other : CategoryRule) (hmem : other ∈ rules ++ [rule]) : score other ≤
        score rule := by
      rcases List.mem_append.mp hmem with hmem | hmem
      · exact (h.largest other hmem).trans hlarger.le
      · rw [List.mem_singleton.mp hmem]
    by_cases hreached : threshold ≤ score rule
    · rw [if_pos hreached]
      refine ⟨h.nonneg.trans hlarger.le, hlargest, fun other hother => ?_, fun hnone =>
        (by cases hnone)⟩
      cases hother
      have hbefore (other : CategoryRule) (hmem : other ∈ rules) : score other < score rule :=
        lt_of_le_of_lt (h.largest other hmem) hlarger
      exact ⟨⟨rules, [], rfl, lt_of_le_of_lt h.nonneg hlarger, hreached, hbefore, fun _ hmem =>
        (by cases hmem)⟩, rfl⟩
    · rw [if_neg hreached]
      refine ⟨h.nonneg.trans hlarger.le, hlargest, fun other hother => ?_, fun _ =>
        .inr (lt_of_not_ge hreached)⟩
      -- A category suggested before would have reached the threshold with less.
      obtain ⟨⟨_, _, _, _, hother, _⟩, heq⟩ := h.chosen other hother
      linarith
  · rw [if_neg hlarger]
    refine ⟨h.nonneg, fun other hmem => ?_, fun other hother => ?_, h.missing⟩
    · rcases List.mem_append.mp hmem with hmem | hmem
      · exact h.largest other hmem
      · rw [List.mem_singleton.mp hmem]
        exact le_of_not_gt hlarger
    · obtain ⟨⟨before, after, rfl, hpos, hreached, hbefore, hafter⟩, heq⟩ := h.chosen other hother
      refine ⟨⟨before, after ++ [rule], by simp, hpos, hreached, hbefore, fun last hmem => ?_⟩, heq⟩
      rcases List.mem_append.mp hmem with hmem | hmem
      · exact hafter last hmem
      · rw [List.mem_singleton.mp hmem, heq]
        exact le_of_not_gt hlarger

theorem inferCategory_of (threshold : ℚ) (score : CategoryRule → ℚ) (rules : List CategoryRule) :
    (inferCategory threshold score rules).Of threshold score rules := by
  induction rules using List.reverseRecOn with
  | nil =>
    exact ⟨le_rfl, fun _ hmem => (by cases hmem), fun _ hsome => (by cases hsome),
      fun _ => .inl rfl⟩
  | append_singleton rules rule ih =>
    unfold inferCategory
    rw [List.foldl_concat]
    exact ih.consider rule

theorem Chosen.unique {rule other : CategoryRule} (h : Chosen threshold score rules rule)
    (h' : Chosen threshold score rules other) :
    rule = other := by
  obtain ⟨before, after, rfl, -, -, hbefore, hafter⟩ := h
  obtain ⟨before', after', heq, -, -, hbefore', hafter'⟩ := h'
  rcases List.append_eq_append_iff.mp heq with ⟨mid, rfl, hmid⟩ | ⟨mid, rfl, hmid⟩
  · cases mid with
    | nil => exact (List.cons.inj hmid).1
    | cons first mid =>
      obtain ⟨rfl, rfl⟩ := List.cons.inj hmid
      have hlt := hbefore' rule (by simp)
      have hle := hafter other (by simp)
      exact absurd hlt (not_lt.mpr hle)
  · cases mid with
    | nil => exact (List.cons.inj hmid).1.symm
    | cons first mid =>
      obtain ⟨rfl, rfl⟩ := List.cons.inj hmid
      have hlt := hbefore other (by simp)
      have hle := hafter' rule (by simp)
      exact absurd hlt (not_lt.mpr hle)

/-- A category is suggested exactly if it is that of the chosen rule. -/
theorem inferCategory_some_iff {rule : CategoryRule} :
    (inferCategory threshold score rules).rule = some rule ↔ Chosen threshold score rules rule := by
  have hof := inferCategory_of threshold score rules
  refine ⟨fun h => (hof.chosen rule h).1, fun hchosen => ?_⟩
  cases hrule : (inferCategory threshold score rules).rule with
  | some other => rw [((hof.chosen other hrule).1).unique hchosen]
  | none =>
    obtain ⟨before, after, rfl, hpos, hreached, -⟩ := hchosen
    have hle := hof.largest rule (by simp)
    rcases hof.missing hrule with hzero | hbelow
    · linarith
    · linarith

/-! ## What is suggested -/

theorem tokenIn_word {text token : String} (h : tokenIn py text = some token) :
    Word (versionNumber py) token.toList := by
  unfold tokenIn at h
  obtain ⟨group, hhead, rfl⟩ := Option.map_eq_some_iff.mp h
  rw [String.toList_ofList]
  exact Matching.mem_findAll (List.mem_of_mem_head? hhead)

theorem versionFound_spec {label : String} {s : ℚ}
    (h : versionFound py threshold request = some (label, s)) :
    (∃ token, Word (versionNumber py) token.toList ∧ label = "v" ++ token ∧
      (tokenIn py request.filename).or (tokenIn py request.previewText) = some token) ∧
        threshold ≤ s := by
  unfold versionFound at h
  cases hfile : tokenIn py request.filename with
  | some token =>
    rw [hfile] at h
    dsimp only at h
    split at h
    · next hreached =>
      cases h
      exact ⟨⟨token, tokenIn_word hfile, rfl, rfl⟩, hreached⟩
    · cases h
  | none =>
    rw [hfile] at h
    dsimp only at h
    cases hpreview : tokenIn py request.previewText with
    | none =>
      rw [hpreview] at h
      cases h
    | some token =>
      rw [hpreview] at h
      dsimp only at h
      split at h
      · next hreached =>
        cases h
        exact ⟨⟨token, tokenIn_word hpreview, rfl, rfl⟩, hreached⟩
      · cases h

theorem superseded_some_iff {category : String} {versionId : UUID} :
    superseded casefold threshold request = some (category, versionId) ↔
      ((bestCategory casefold threshold request).rule.map (·.category)) = some category ∧
        ∃ version, published request category = [version] ∧ version.versionId = versionId := by
  unfold superseded
  cases hrule : (bestCategory casefold threshold request).rule with
  | none =>
    refine ⟨fun h => (by cases h), ?_⟩
    rintro ⟨hnone, -⟩
    cases hnone
  | some rule =>
    dsimp only [Option.map_some]
    split
    · next version hversion =>
      constructor
      · intro h
        cases h
        exact ⟨rfl, version, hversion, rfl⟩
      · rintro ⟨hcategory, other, hother, rfl⟩
        cases hcategory
        rw [hversion] at hother
        cases hother
        rfl
    · next hversions =>
      refine ⟨fun h => (by cases h), ?_⟩
      rintro ⟨hcategory, other, hother, -⟩
      cases hcategory
      exact absurd hother (hversions other)

theorem foldl_min_mem (s : ℚ) (scores : List ℚ) : scores.foldl min s ∈ s :: scores := by
  induction scores generalizing s with
  | nil => exact List.mem_singleton.mpr rfl
  | cons t scores ih =>
    rw [List.foldl_cons]
    rcases List.mem_cons.mp (ih (min s t)) with h | h
    · rw [h]
      rcases min_choice s t with hmin | hmin
      · rw [hmin]
        exact List.mem_cons_self
      · rw [hmin]
        exact List.mem_cons_of_mem _ List.mem_cons_self
    · exact List.mem_cons_of_mem _ (List.mem_cons_of_mem _ h)

theorem minScore_mem {scores : List ℚ} (h : scores ≠ []) : minScore scores ∈ scores := by
  cases scores with
  | nil => exact absurd rfl h
  | cons s scores => exact foldl_min_mem s scores

/-- Each score is one that the threshold was compared with, or that of the version that is
superseded. -/
theorem findings_scores {evidence : String} {s : ℚ}
    (h : (evidence, s) ∈ findings py casefold threshold request) :
    threshold ≤ s ∨ s = double (90 / 100) := by
  unfold findings at h
  rcases List.mem_append.mp h with h | h
  · rcases List.mem_append.mp h with h | h
    · rcases List.mem_append.mp h with h | h
      · by_cases hreached : threshold ≤ projectScore casefold request
        · rw [if_pos hreached] at h
          cases List.mem_singleton.mp h
          exact .inl hreached
        · rw [if_neg hreached] at h
          cases h
      · obtain ⟨rule, hrule, heq⟩ := List.mem_map.mp h
        cases heq
        have hof := inferCategory_of threshold (categoryScore casefold request) categoryRules
        obtain ⟨⟨_, _, _, _, hreached, _⟩, hscore⟩ := hof.chosen rule (Option.mem_toList.mp hrule)
        exact .inl (hscore ▸ hreached)
    · obtain ⟨version, hversion, heq⟩ := List.mem_map.mp h
      cases heq
      exact .inl (versionFound_spec (Option.mem_toList.mp hversion)).2
  · obtain ⟨version, -, heq⟩ := List.mem_map.mp h
    cases heq
    exact .inr rfl

theorem map_length {α β : Type} (f : α → β) (part : Option α) :
    (part.map f).toList.length = part.toList.length := by
  cases part with
  | none => rfl
  | some a => rfl

/-- What the parts of a suggestion say of the request. -/
structure Supported (py : Python) (casefold : String → String) (threshold : ℚ)
    (request : MetadataSuggestionInput) (suggestion : MetadataSuggestion) : Prop where
  project : suggestion.projectId = if threshold ≤ projectScore casefold request then
    some request.projectId else none
  category : ∀ category authority, suggestion.documentCategory = some category ∧
    suggestion.authorityLevel = some authority ↔
    ∃ rule, Chosen threshold (categoryScore casefold request) categoryRules rule ∧
      rule.category = category ∧
      rule.authority = authority
  version : ∀ label, suggestion.versionLabel = some label →
    ∃ token, Word (versionNumber py) token.toList ∧ label = "v" ++ token ∧
    (tokenIn py request.filename).or (tokenIn py request.previewText) = some token
  supersedes : ∀ versionId, suggestion.supersedesVersionId = some versionId ↔
    ∃ category version, suggestion.documentCategory = some category ∧
      published request category = [version] ∧
      version.versionId = versionId
  evidence : suggestion.evidence.length = suggestion.projectId.toList.length +
    suggestion.documentCategory.toList.length +
    suggestion.versionLabel.toList.length + suggestion.supersedesVersionId.toList.length
  unsupported : suggestion.evidence = [] → suggestion.confidence = 0
  confidence : suggestion.evidence ≠ [] → threshold ≤ suggestion.confidence ∨
    suggestion.confidence = double (90 / 100)

/-- **A suggestion says what is found in the request and nothing else.** Whatever the threshold, the
category is that of the first rule with the largest score, if that is positive and reaches the
threshold; the version superseded is the only published one of that category; there is a line of
evidence for each part suggested; and the confidence of what has evidence is not below the
threshold, unless it is that of the version superseded. -/
theorem suggest_supported (py : Python) (casefold : String → String) (threshold : ℚ)
    (request : MetadataSuggestionInput) :
    Supported py casefold threshold request (suggest py casefold threshold request) where
  project := rfl
  category category authority := by
    unfold suggest
    dsimp only
    constructor
    · rintro ⟨hcategory, hauthority⟩
      obtain ⟨rule, hrule, rfl⟩ := Option.map_eq_some_iff.mp hcategory
      rw [hrule] at hauthority
      exact ⟨rule, inferCategory_some_iff.mp hrule, rfl, Option.some.inj hauthority⟩
    · rintro ⟨rule, hchosen, rfl, rfl⟩
      have hrule : (bestCategory casefold threshold request).rule = some rule :=
        inferCategory_some_iff.mpr hchosen
      rw [hrule]
      exact ⟨rfl, rfl⟩
  version label h := by
    obtain ⟨⟨label, s⟩, hfound, rfl⟩ := Option.map_eq_some_iff.mp h
    exact (versionFound_spec hfound).1
  supersedes versionId := by
    constructor
    · intro h
      obtain ⟨⟨category, versionId⟩, hfound, rfl⟩ := Option.map_eq_some_iff.mp h
      obtain ⟨hcategory, version, hversion, hid⟩ := superseded_some_iff.mp hfound
      exact ⟨category, version, hcategory, hversion, hid⟩
    · rintro ⟨category, version, hcategory, hversion, hid⟩
      have hfound := superseded_some_iff.mpr ⟨hcategory, version, hversion, hid⟩
      exact Option.map_eq_some_iff.mpr ⟨(category, versionId), hfound, rfl⟩
  evidence := by
    unfold suggest findings
    by_cases hreached : threshold ≤ projectScore casefold request
    · simp [hreached, map_length]
      omega
    · simp [hreached, map_length]
      omega
  unsupported h := by
    have hnone : findings py casefold threshold request = [] := List.map_eq_nil_iff.mp h
    unfold suggest
    rw [hnone]
    rfl
  confidence h := by
    have hsome : (findings py casefold threshold request).map (·.2) ≠ [] := fun hnil =>
      h (List.map_eq_nil_iff.mpr (List.map_eq_nil_iff.mp hnil))
    obtain ⟨⟨evidence, s⟩, hmem, hs⟩ := List.mem_map.mp (minScore_mem hsome)
    have hscore := findings_scores hmem
    show threshold ≤ minScore _ ∨ minScore _ = _
    rw [← hs]
    exact hscore

end ProjectAgent.Documents.Metadata
