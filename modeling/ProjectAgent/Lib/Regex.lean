/-
Matching of regular expressions by backtracking: the ends of the matches at a
place of a text, in the order in which they are tried; the first match at a
place, with its group; and the matches from left to right.

What is matched is a word of the expression, whatever the assertions say. And
where assertions cannot tell what surrounds a text from its edges, and no match
begins or ends in what surrounds it, the text is matched inside it as it is alone.
-/
import Mathlib.Data.List.Basic

namespace Matching

/-- A place in a text: what is before it, the nearest first, and what is after it. -/
structure Place (α : Type) where
  before : List α
  after : List α

inductive Regex (α : Type) where
  | empty
  | char (p : α → Bool)
  | seq (r s : Regex α)
  | alt (r s : Regex α)
  /-- Greedy. -/
  | star (r : Regex α)
  | look (holds : Place α → Bool)

variable {α : Type}

namespace Regex

/-! ## Matching -/

/-- As often as it goes, and then less often. -/
def repeated (step : Place α → List (Place α)) : Nat → Place α → List (Place α)
  | 0, z => [z]
  | n + 1, z => (step z).flatMap (repeated step n) ++ [z]

/-- Where a match that begins here may end, in the order of trial. Each round of a star is to
consume something. -/
def ends : Regex α → Place α → List (Place α)
  | .empty, z => [z]
  | .char p, z =>
    match z.after with
    | [] => []
    | c :: rest => if p c then [⟨c :: z.before, rest⟩] else []
  | .seq r s, z => (ends r z).flatMap (ends s)
  | .alt r s, z => ends r z ++ ends s z
  | .star r, z => repeated (ends r) z.after.length z
  | .look holds, z => if holds z then [z] else []

@[simp] def opt (r : Regex α) : Regex α := .alt r .empty

@[simp] def plus (r : Regex α) : Regex α := .seq r (.star r)

/-- From one to as many as that. -/
@[simp] def upTo (r : Regex α) : Nat → Regex α
  | 0 => r
  | n + 1 => .seq r (opt (upTo r n))

@[simp] def any : List (Regex α) → Regex α
  | [] => .look fun _ => false
  | [r] => r
  | r :: rest => .alt r (any rest)

@[simp] def all : List (Regex α) → Regex α
  | [] => .empty
  | [r] => r
  | r :: rest => .seq r (all rest)

/-- `(?!r)`. -/
def notAhead (r : Regex α) : Regex α := .look fun z => (ends r z).isEmpty

/-- `(?<!p)`. -/
def notBehind (p : α → Bool) : Regex α := .look fun z => !z.before.head?.any p

end Regex

/-- An expression with one group. -/
structure Pattern (α : Type) where
  pre : Regex α
  group : Regex α
  post : Regex α

namespace Pattern

/-- The text of the group, and where the match ends. -/
def matches_ (p : Pattern α) (z : Place α) : List (List α × Place α) :=
  (p.pre.ends z).flatMap fun z₁ => (p.group.ends z₁).flatMap fun z₂ =>
    (p.post.ends z₂).map fun z₃ => (z₁.after.take (z₁.after.length - z₂.after.length), z₃)

/-- The groups of the matches from here on, none of which is empty. -/
def findAll (p : Pattern α) : Nat → Place α → List (List α)
  | 0, _ => []
  | n + 1, z =>
    match (p.matches_ z).head? with
    | some (text, z') => text :: findAll p n z'
    | none =>
      match z.after with
      | [] => []
      | c :: rest => findAll p n ⟨c :: z.before, rest⟩

/-- The groups of `finditer`. -/
def finditer (p : Pattern α) (text : List α) : List (List α) :=
  p.findAll (text.length + 1) ⟨[], text⟩

def whole (p : Pattern α) : Regex α := .seq p.pre (.seq p.group p.post)

end Pattern

/-! ## Searching -/

/-- The places of a text, from this one on. -/
def places : List α → List α → List (Place α)
  | before, [] => [⟨before, []⟩]
  | before, c :: rest => ⟨before, c :: rest⟩ :: places (c :: before) rest

namespace Regex

/-- `re.search`, from this place on. -/
def searchFrom (r : Regex α) (before after : List α) : Bool :=
  (places before after).any fun z => !(r.ends z).isEmpty

def search (r : Regex α) (text : List α) : Bool := r.searchFrom [] text

/-- `r{n,}`. -/
@[simp] def atLeast (r : Regex α) : Nat → Regex α
  | 0 => .star r
  | n + 1 => .seq r (atLeast r n)

/-- `^`, of one line. -/
def textStart : Regex α := .look fun z => z.before.isEmpty

def matchesAtStart (r : Regex α) (text : List α) : Bool := !(r.ends ⟨[], text⟩).isEmpty

/-- From the second place on. -/
def searchLater (r : Regex α) : List α → Bool
  | [] => false
  | c :: text => r.searchFrom [c] text

/-- A match somewhere is one at the start or one further on. -/
theorem search_eq (r : Regex α) (text : List α) :
    r.search text = (r.matchesAtStart text || r.searchLater text) := by
  cases text <;> rfl

theorem ends_textStart (r : Regex α) (z : Place α) :
    (Regex.seq textStart r).ends z = if z.before.isEmpty then r.ends z else [] := by
  change ((if z.before.isEmpty then [z] else [] : List (Place α)).flatMap r.ends) = _
  split
  · exact List.flatMap_singleton _ _
  · rfl

theorem searchFrom_textStart (r : Regex α) (c : α) (before text : List α) :
    (Regex.seq textStart r).searchFrom (c :: before) text = false := by
  unfold searchFrom
  induction text generalizing c before with
  | nil =>
    rw [places, List.any_cons, ends_textStart, List.any_nil]
    rfl
  | cons d text ih =>
    rw [places, List.any_cons, ih, ends_textStart]
    rfl

/-- An anchored search looks at the start only. -/
theorem search_textStart (r : Regex α) (text : List α) :
    (Regex.seq textStart r).search text = r.matchesAtStart text := by
  have hstart : (Regex.seq textStart r).matchesAtStart text = r.matchesAtStart text := by
    unfold matchesAtStart
    rw [ends_textStart]
    rfl
  have hlater : (Regex.seq textStart r).searchLater text = false := by
    cases text with
    | nil => rfl
    | cons c text => exact searchFrom_textStart r c [] text
  rw [search_eq, hstart, hlater, Bool.or_false]

end Regex

/-! ## Words -/

/-- The words of an expression, its assertions left out. -/
inductive Word : Regex α → List α → Prop where
  | empty : Word .empty []
  | char {p : α → Bool} {c : α} (h : p c = true) : Word (.char p) [c]
  | seq {r s : Regex α} {u v : List α} (hu : Word r u) (hv : Word s v) : Word (.seq r s) (u ++ v)
  | left {r s : Regex α} {u : List α} (hu : Word r u) : Word (.alt r s) u
  | right {r s : Regex α} {u : List α} (hu : Word s u) : Word (.alt r s) u
  | none {r : Regex α} : Word (.star r) []
  | more {r : Regex α} {u v : List α} (hu : Word r u) (hv : Word (.star r) v) :
      Word (.star r) (u ++ v)
  | look {holds : Place α → Bool} : Word (.look holds) []

section Words

variable {r s : Regex α} {w : List α}

@[simp] theorem word_empty : Word .empty w ↔ w = [] := by
  constructor
  · rintro ⟨⟩
    rfl
  · rintro rfl
    exact .empty

@[simp] theorem word_look {holds : Place α → Bool} : Word (.look holds) w ↔ w = [] := by
  constructor
  · rintro ⟨⟩
    rfl
  · rintro rfl
    exact .look

@[simp] theorem word_char {p : α → Bool} : Word (.char p) w ↔ ∃ c, w = [c] ∧ p c = true := by
  constructor
  · rintro ⟨⟩
    exact ⟨_, rfl, ‹_›⟩
  · rintro ⟨c, rfl, hc⟩
    exact .char hc

@[simp] theorem word_seq : Word (.seq r s) w ↔ ∃ u, Word r u ∧ ∃ v, Word s v ∧ w = u ++ v := by
  constructor
  · rintro ⟨⟩
    exact ⟨_, ‹_›, _, ‹_›, rfl⟩
  · rintro ⟨u, hu, v, hv, rfl⟩
    exact .seq hu hv

@[simp] theorem word_alt : Word (.alt r s) w ↔ Word r w ∨ Word s w := by
  constructor
  · rintro ⟨⟩
    · exact .inl ‹_›
    · exact .inr ‹_›
  · exact fun h => h.elim .left .right

/-- From one to `n + 1` words, one after the other. -/
theorem word_upTo {n : Nat} (h : Word (r.upTo n) w) :
    ∃ u us, us.length ≤ n ∧ (∀ v ∈ u :: us, Word r v) ∧ w = (u :: us).flatten := by
  induction n generalizing w with
  | zero => exact ⟨w, [], Nat.le_refl _, by simpa using h, by simp⟩
  | succ n ih =>
    obtain ⟨u, hu, v, hv, rfl⟩ := word_seq.mp h
    rcases word_alt.mp hv with hv | hv
    · obtain ⟨u', us, hlen, hall, rfl⟩ := ih hv
      exact ⟨u, u' :: us, Nat.succ_le_succ hlen, List.forall_mem_cons.mpr ⟨hu, hall⟩, rfl⟩
    · obtain rfl := word_empty.mp hv
      exact ⟨u, [], Nat.zero_le _, by simpa using hu, by simp⟩

end Words

/-- What is read from one place to the other. -/
structure Reads (z z' : Place α) (w : List α) : Prop where
  after : z.after = w ++ z'.after
  before : z'.before = w.reverse ++ z.before

variable {r s : Regex α} {z z' z'' : Place α} {u v w : List α} {n : Nat}

theorem Reads.refl : Reads z z [] := ⟨rfl, rfl⟩

theorem Reads.trans (h : Reads z z' u) (h' : Reads z' z'' v) : Reads z z'' (u ++ v) where
  after := by rw [h.after, h'.after, List.append_assoc]
  before := by rw [h'.before, h.before, List.reverse_append, List.append_assoc]

theorem Reads.length (h : Reads z z' w) : z.after.length = w.length + z'.after.length := by
  rw [h.after, List.length_append]

theorem repeated_reads (hr : ∀ z z', z' ∈ r.ends z → ∃ w, Word r w ∧ Reads z z' w)
    (h : z' ∈ Regex.repeated r.ends n z) : ∃ w, Word (.star r) w ∧ Reads z z' w := by
  induction n generalizing z with
  | zero =>
    obtain rfl := List.mem_singleton.mp h
    exact ⟨[], .none, .refl⟩
  | succ n ih =>
    rcases List.mem_append.mp h with h | h
    · obtain ⟨z₁, hz₁, hz'⟩ := List.mem_flatMap.mp h
      obtain ⟨u, hu, hreads⟩ := hr z z₁ hz₁
      obtain ⟨v, hv, hreads'⟩ := ih hz'
      exact ⟨u ++ v, .more hu hv, hreads.trans hreads'⟩
    · obtain rfl := List.mem_singleton.mp h
      exact ⟨[], .none, .refl⟩

/-- **What is matched is a word.** -/
theorem ends_reads (h : z' ∈ r.ends z) : ∃ w, Word r w ∧ Reads z z' w := by
  induction r generalizing z z' with
  | empty =>
    obtain rfl := List.mem_singleton.mp h
    exact ⟨[], .empty, .refl⟩
  | char p =>
    obtain ⟨before, after⟩ := z
    cases after with
    | nil => cases h
    | cons c rest =>
      unfold Regex.ends at h
      dsimp only at h
      split at h
      · next hc =>
        obtain rfl := List.mem_singleton.mp h
        exact ⟨[c], .char hc, rfl, rfl⟩
      · cases h
  | seq r s ihr ihs =>
    obtain ⟨z₁, hz₁, hz'⟩ := List.mem_flatMap.mp h
    obtain ⟨u, hu, hreads⟩ := ihr hz₁
    obtain ⟨v, hv, hreads'⟩ := ihs hz'
    exact ⟨u ++ v, .seq hu hv, hreads.trans hreads'⟩
  | alt r s ihr ihs =>
    rcases List.mem_append.mp h with h | h
    · obtain ⟨u, hu, hreads⟩ := ihr h
      exact ⟨u, .left hu, hreads⟩
    · obtain ⟨u, hu, hreads⟩ := ihs h
      exact ⟨u, .right hu, hreads⟩
  | star r ih => exact repeated_reads (fun _ _ h => ih h) h
  | look holds =>
    unfold Regex.ends at h
    split at h
    · obtain rfl := List.mem_singleton.mp h
      exact ⟨[], .look, .refl⟩
    · cases h

/-- What is found somewhere is a word that stands in the text. -/
theorem exists_word_of_search {text : List α} (h : r.search text = true) :
    ∃ w, Word r w ∧ w <:+: text := by
  have hplaces (before after : List α) : ∀ z ∈ places before after, z.after <:+ after := by
    induction after generalizing before with
    | nil =>
      intro z hz
      obtain rfl := List.mem_singleton.mp hz
      exact List.suffix_rfl
    | cons c rest ih =>
      intro z hz
      rcases List.mem_cons.mp hz with rfl | hz
      · exact List.suffix_rfl
      · exact (ih _ z hz).trans (List.suffix_cons c rest)
  obtain ⟨z, hz, hends⟩ := List.any_eq_true.mp h
  have hsome : r.ends z ≠ [] := by simpa using hends
  obtain ⟨z', hz'⟩ := List.exists_mem_of_ne_nil _ hsome
  obtain ⟨w, hw, hreads⟩ := ends_reads hz'
  refine ⟨w, hw, List.IsInfix.trans ?_ (hplaces [] text z hz).isInfix⟩
  rw [hreads.after]
  exact (List.prefix_append w _).isInfix

theorem ends_length (h : z' ∈ r.ends z) : z'.after.length ≤ z.after.length := by
  obtain ⟨w, -, hreads⟩ := ends_reads h
  rw [hreads.length]
  exact Nat.le_add_left _ _

/-- What is matched is a word of the whole, and the group's text one of the group. -/
theorem matches_reads {p : Pattern α} {text : List α} (h : (text, z') ∈ p.matches_ z) :
    Word p.group text ∧ ∃ w, Word p.whole w ∧ Reads z z' w := by
  obtain ⟨z₁, hz₁, h⟩ := List.mem_flatMap.mp h
  obtain ⟨z₂, hz₂, h⟩ := List.mem_flatMap.mp h
  obtain ⟨z₃, hz₃, heq⟩ := List.mem_map.mp h
  obtain ⟨rfl, rfl⟩ := Prod.mk.inj heq
  obtain ⟨u, hu, hreads⟩ := ends_reads hz₁
  obtain ⟨v, hv, hreads'⟩ := ends_reads hz₂
  obtain ⟨w, hw, hreads''⟩ := ends_reads hz₃
  refine ⟨?_, u ++ (v ++ w), .seq hu (.seq hv hw), hreads.trans (hreads'.trans hreads'')⟩
  have htext : z₁.after.take (z₁.after.length - z₂.after.length) = v := by
    rw [hreads'.length, Nat.add_sub_cancel, hreads'.after, List.take_left]
  rwa [htext]

/-- What is found is a word of the group. -/
theorem mem_findAll {p : Pattern α} {text : List α} (h : text ∈ p.findAll n z) :
    Word p.group text := by
  induction n generalizing z with
  | zero => cases h
  | succ n ih =>
    unfold Pattern.findAll at h
    split at h
    · next hmatch =>
      rcases List.mem_cons.mp h with rfl | h
      · exact (matches_reads (List.mem_of_mem_head? hmatch)).1
      · exact ih h
    · split at h
      · cases h
      · exact ih h

/-! ## What a word begins with, ends in and consists of -/

namespace Regex

/-- What `p` takes is such a symbol. -/
def Only (p : α → Bool) (P : α → Prop) : Prop := ∀ c, p c = true → P c

/-- Each symbol of a word is such a one. -/
@[simp] def Consists (P : α → Prop) : Regex α → Prop
  | .char p => Only p P
  | .seq r s | .alt r s => Consists P r ∧ Consists P s
  | .star r => Consists P r
  | .empty | .look _ => True

/-- A word begins with such a symbol, or is empty where that is allowed. -/
@[simp] def Begins (P : α → Prop) : Regex α → Bool → Prop
  | .char p, _ => Only p P
  | .seq r s, mayBeEmpty => Begins P r false ∨ Begins P r true ∧ Begins P s mayBeEmpty
  | .alt r s, mayBeEmpty => Begins P r mayBeEmpty ∧ Begins P s mayBeEmpty
  | .star r, mayBeEmpty => mayBeEmpty = true ∧ Begins P r true
  | .empty, mayBeEmpty | .look _, mayBeEmpty => mayBeEmpty = true

/-- A word ends in such a symbol, or is empty where that is allowed. -/
@[simp] def Ends (P : α → Prop) : Regex α → Bool → Prop
  | .char p, _ => Only p P
  | .seq r s, mayBeEmpty => Ends P s false ∨ Ends P s true ∧ Ends P r mayBeEmpty
  | .alt r s, mayBeEmpty => Ends P r mayBeEmpty ∧ Ends P s mayBeEmpty
  | .star r, mayBeEmpty => mayBeEmpty = true ∧ Ends P r true
  | .empty, mayBeEmpty | .look _, mayBeEmpty => mayBeEmpty = true

@[simp] theorem notAhead_begins {P : α → Prop} {r : Regex α} {mayBeEmpty : Bool} :
    r.notAhead.Begins P mayBeEmpty ↔ mayBeEmpty = true := .rfl

@[simp] theorem notBehind_begins {P : α → Prop} {q : α → Bool} {mayBeEmpty : Bool} :
    (notBehind q).Begins P mayBeEmpty ↔ mayBeEmpty = true := .rfl

@[simp] theorem notAhead_consists {P : α → Prop} {r : Regex α} : r.notAhead.Consists P := trivial

@[simp] theorem notBehind_consists {P : α → Prop} {q : α → Bool} : (notBehind q).Consists P :=
  trivial

@[simp] theorem only_true (p : α → Bool) : Only p fun _ => True := fun _ _ => trivial

theorem Begins.mono {P Q : α → Prop} (hPQ : ∀ c, P c → Q c) {r : Regex α} {mayBeEmpty : Bool}
    (h : r.Begins P mayBeEmpty) : r.Begins Q mayBeEmpty := by
  induction r generalizing mayBeEmpty with
  | empty | look => exact h
  | char p => exact fun c hc => hPQ c (h c hc)
  | seq r s ihr ihs => exact h.imp ihr fun h => ⟨ihr h.1, ihs h.2⟩
  | alt r s ihr ihs => exact ⟨ihr h.1, ihs h.2⟩
  | star r ih => exact ⟨h.1, ih h.2⟩

theorem Ends.mono {P Q : α → Prop} (hPQ : ∀ c, P c → Q c) {r : Regex α} {mayBeEmpty : Bool}
    (h : r.Ends P mayBeEmpty) : r.Ends Q mayBeEmpty := by
  induction r generalizing mayBeEmpty with
  | empty | look => exact h
  | char p => exact fun c hc => hPQ c (h c hc)
  | seq r s ihr ihs => exact h.imp ihs fun h => ⟨ihs h.1, ihr h.2⟩
  | alt r s ihr ihs => exact ⟨ihr h.1, ihs h.2⟩
  | star r ih => exact ⟨h.1, ih h.2⟩

end Regex

variable {P : α → Prop}

theorem Word.consists (h : Word r w) (hr : r.Consists P) : ∀ c ∈ w, P c := by
  induction h with
  | empty | none | look => exact fun c hc => nomatch hc
  | char h =>
    intro c hc
    obtain rfl := List.mem_singleton.mp hc
    exact hr _ h
  | seq _ _ ihu ihv =>
    intro c hc
    exact (List.mem_append.mp hc).elim (ihu hr.1 c) (ihv hr.2 c)
  | left _ ih => exact ih hr.1
  | right _ ih => exact ih hr.2
  | more _ _ ihu ihv =>
    intro c hc
    exact (List.mem_append.mp hc).elim (ihu hr c) (ihv hr c)

/-- A word of such an expression begins so. -/
theorem Word.begins {mayBeEmpty : Bool} (h : Word r w) (hr : r.Begins P mayBeEmpty) :
    w = [] ∧ mayBeEmpty = true ∨ ∃ c rest, w = c :: rest ∧ P c := by
  induction h generalizing mayBeEmpty with
  | empty | look => exact .inl ⟨rfl, hr⟩
  | none => exact .inl ⟨rfl, hr.1⟩
  | char h => exact .inr ⟨_, [], rfl, hr _ h⟩
  | seq _ _ ihu ihv =>
    rcases hr with hr | ⟨hr, hs⟩
    · rcases ihu hr with ⟨-, hno⟩ | ⟨c, rest, rfl, hc⟩
      · cases hno
      · exact .inr ⟨c, _, rfl, hc⟩
    · rcases ihu hr with ⟨rfl, -⟩ | ⟨c, rest, rfl, hc⟩
      · exact ihv hs
      · exact .inr ⟨c, _, rfl, hc⟩
  | left _ ih => exact ih hr.1
  | right _ ih => exact ih hr.2
  | more _ _ ihu ihv =>
    rcases ihu hr.2 with ⟨rfl, -⟩ | ⟨c, rest, rfl, hc⟩
    · exact ihv hr
    · exact .inr ⟨c, _, rfl, hc⟩

/-- A word of such an expression ends so. -/
theorem Word.ends {mayBeEmpty : Bool} (h : Word r w) (hr : r.Ends P mayBeEmpty) :
    w = [] ∧ mayBeEmpty = true ∨ ∃ rest c, w = rest ++ [c] ∧ P c := by
  have hlast {u v : List α} (h : ∃ rest c, v = rest ++ [c] ∧ P c) : ∃ rest c,
      u ++ v = rest ++ [c] ∧ P c := by
    obtain ⟨rest, c, rfl, hc⟩ := h
    exact ⟨u ++ rest, c, (List.append_assoc _ _ _).symm, hc⟩
  induction h generalizing mayBeEmpty with
  | empty | look => exact .inl ⟨rfl, hr⟩
  | none => exact .inl ⟨rfl, hr.1⟩
  | char h => exact .inr ⟨[], _, rfl, hr _ h⟩
  | seq _ _ ihu ihv =>
    rcases hr with hs | ⟨hs, hr⟩
    · rcases ihv hs with ⟨-, hno⟩ | hv
      · cases hno
      · exact .inr (hlast hv)
    · rcases ihv hs with ⟨rfl, -⟩ | hv
      · rw [List.append_nil]
        exact ihu hr
      · exact .inr (hlast hv)
  | left _ ih => exact ih hr.1
  | right _ ih => exact ih hr.2
  | more _ _ ihu ihv =>
    rcases ihv hr with ⟨rfl, -⟩ | hv
    · rw [List.append_nil]
      rcases ihu hr.2 with ⟨rfl, -⟩ | hu
      · exact .inl ⟨rfl, hr.1⟩
      · exact .inr hu
    · exact .inr (hlast hv)

end Matching
