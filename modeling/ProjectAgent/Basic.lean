/-
Texts and ids, as every part of the service uses them. Ids that the source
passes around as `str(uuid)` (a job's aggregate, a request's project) stay the
UUIDs they print where the text is not compared with others; `UUID.str` is the
canonical text, and `UUID.str_inj` says that nothing is lost by that. A text
that the source reads with `UUID(text)` is read as the language reads it
(`UUID.parse`), in any of the forms it takes.
-/
import Mathlib.Algebra.GroupWithZero.Nat
import ProjectAgent.Lib.Json

namespace ProjectAgent

/-! ## Texts -/

-- what is said of the characters of a list is decided by going through the list, not through all
-- characters
instance (priority := 1100) decidableCharsAll (p : Char → Prop) [DecidablePred p] (l : List Char) :
    Decidable (∀ c ∈ l, p c) :=
  List.decidableBAll p l

/-- `str.isspace` of one character. -/
def isSpace (c : Char) : Bool :=
  let n := c.toNat
  9 ≤ n && n ≤ 13 || 28 ≤ n && n ≤ 32 || n == 0x85 || n == 0xA0 || n == 0x1680 || 0x2000 ≤ n &&
    n ≤ 0x200A ||
    n == 0x2028 || n == 0x2029 || n == 0x202F || n == 0x205F || n == 0x3000

/-- `text.strip(characters)`. -/
def stripChars (drop : Char → Bool) (cs : List Char) : List Char :=
  ((cs.dropWhile drop).reverse.dropWhile drop).reverse

/-- `str.strip()`. -/
def strip (text : String) : String :=
  String.ofList ((text.toList.dropWhile isSpace).reverse.dropWhile isSpace).reverse

/-- `not text.strip()`. -/
@[irreducible] def blank (text : String) : Bool := text.toList.all isSpace

/-- `text or None`. -/
def orNone (text : Option String) : Option String := text.filter (· ≠ "")

theorem stripChars_none {cs : List Char} {p : Char → Bool} (h : ∀ c ∈ cs, p c = false) :
    stripChars p cs = cs := by
  have hdrop (cs : List Char) (h : ∀ c ∈ cs, p c = false) : cs.dropWhile p = cs := by
    cases cs with
    | nil => rfl
    | cons c cs => rw [List.dropWhile_cons, h c List.mem_cons_self, if_neg Bool.false_ne_true]
  unfold stripChars
  rw [hdrop cs h, hdrop cs.reverse fun c hc => h c (List.mem_reverse.mp hc), List.reverse_reverse]

theorem mem_intercalate {sep : List Char} {parts : List (List Char)} {c : Char}
    (h : c ∈ sep.intercalate parts) :
    c ∈ sep ∨ c ∈ parts.flatten := by
  induction parts with
  | nil => exact absurd h List.not_mem_nil
  | cons part parts ih =>
    cases parts with
    | nil =>
      rw [List.intercalate_singleton] at h
      exact .inr (List.mem_flatten_of_mem List.mem_cons_self h)
    | cons next parts =>
      rw [List.intercalate_cons_cons, List.append_assoc] at h
      rcases List.mem_append.mp h with h | h
      · exact .inr (List.mem_append_left _ h)
      · rcases List.mem_append.mp h with h | h
        · exact .inl h
        · exact (ih h).imp_right fun h => List.mem_append_right _ h

/-! ## `int(text, 16)` -/

/-- The zeros of the scripts that have digits; after each stand its other nine. -/
def decimalZeros : List Nat :=
  [0x30, 0x660, 0x6f0, 0x7c0, 0x966, 0x9e6, 0xa66, 0xae6, 0xb66, 0xbe6, 0xc66, 0xce6, 0xd66, 0xde6,
    0xe50, 0xed0,
    0xf20, 0x1040, 0x1090, 0x17e0, 0x1810, 0x1946, 0x19d0, 0x1a80, 0x1a90, 0x1b50, 0x1bb0, 0x1c40,
      0x1c50, 0xa620,
    0xa8d0, 0xa900, 0xa9d0, 0xa9f0, 0xaa50, 0xabf0, 0xff10, 0x104a0, 0x10d30, 0x11066, 0x110f0,
      0x11136, 0x111d0,
    0x112f0, 0x11450, 0x114d0, 0x11650, 0x116c0, 0x11730, 0x118e0, 0x11950, 0x11c50, 0x11d50,
      0x11da0, 0x11f50,
    0x16a60, 0x16ac0, 0x16b50, 0x1d7ce, 0x1d7d8, 0x1d7e2, 0x1d7ec, 0x1d7f6, 0x1e140, 0x1e2f0,
      0x1e4f0, 0x1e950,
    0x1fbf0]

/-- The character that is read in its place: a digit of another script is the digit, a space outside
ASCII a blank. -/
def asciiChar (c : Char) : Option Char :=
  if c.toNat < 127 then some c
  else if isSpace c then some ' '
  else
    (decimalZeros.find? fun first => first ≤ c.toNat && c.toNat ≤ first + 9).map fun first =>
      Nat.digitChar (c.toNat - first)

/-- What may stand around a number: not all that `strip` takes off. -/
def isBlank (c : Char) : Bool := 9 ≤ c.toNat && c.toNat ≤ 13 || c == ' '

def withoutSign : List Char → List Char
  | '+' :: cs => cs
  | cs => cs

/-- Without a prefix of the base, after which an underscore may stand. -/
def withoutBase : List Char → List Char
  | '0' :: 'x' :: '_' :: cs | '0' :: 'X' :: '_' :: cs | '0' :: 'x' :: cs | '0' :: 'X' :: cs => cs
  | cs => cs

/-- `int(text, 16)`, of a text without a minus. -/
def intOfHex (text : List Char) : Option Nat := do
  let text ← text.mapM asciiChar
  let digits := withoutBase (withoutSign (stripChars isBlank text))
  -- an underscore stands between two digits
  if digits.isEmpty || digits.head? == some '_' || digits.getLast? == some '_' ||
    (digits.zip digits.tail).contains ('_', '_') then none
  else Json.hexValue (digits.filter (· ≠ '_'))

section Hex

variable {cs : List Char} {c : Char}

theorem toLower_eq (c : Char) :
    (65 ≤ c.toNat ∧ c.toNat ≤ 90 ∧ c.toLower.toNat = c.toNat + 32) ∨
      ((c.toNat < 65 ∨ 90 < c.toNat) ∧ c.toLower = c) := by
  unfold Char.toLower
  split
  · next h =>
    have hlow : 65 ≤ c.toNat := UInt32.le_iff_toNat_le.mp h.1
    have hhigh : c.val.toNat ≤ 90 := UInt32.le_iff_toNat_le.mp h.2
    refine .inl ⟨hlow, hhigh, ?_⟩
    show (c.val + 32).toNat = c.val.toNat + 32
    rw [UInt32.toNat_add]
    exact Nat.mod_eq_of_lt (by simp only [UInt32.reduceToNat]; omega)
  · next h =>
    refine .inr ⟨?_, rfl⟩
    by_contra hrange
    refine h ⟨UInt32.le_iff_toNat_le.mpr ?_, UInt32.le_iff_toNat_le.mpr ?_⟩
    · show 65 ≤ c.toNat
      omega
    · show c.toNat ≤ 90
      omega

theorem toLower_idem (c : Char) : c.toLower.toLower = c.toLower := by
  rcases toLower_eq c.toLower with h | ⟨-, h⟩
  · rcases toLower_eq c with hupper | ⟨hrange, hsame⟩
    · omega
    · rw [hsame] at h
      omega
  · exact h

/-- Only an upper case letter is not in lower case. -/
theorem toLower_eq_self : c.toLower = c ↔ c.isUpper = false := by
  have hupper : c.isUpper = true ↔ 65 ≤ c.toNat ∧ c.toNat ≤ 90 := by
    unfold Char.isUpper
    rw [decide_eq_true_iff]
    exact and_congr UInt32.le_iff_toNat_le UInt32.le_iff_toNat_le
  rw [← Bool.not_eq_true, hupper]
  rcases toLower_eq c with h | ⟨h, hsame⟩
  · refine iff_of_false (fun hsame => ?_) (fun hrange => hrange ⟨h.1, h.2.1⟩)
    rw [hsame] at h
    omega
  · refine iff_of_true hsame fun hrange => ?_
    omega

/-- A hexadecimal digit, in either case. -/
def IsHex (c : Char) : Prop := ∃ a : Fin 16, c.toLower = Nat.digitChar a

theorem IsHex.ne (h : IsHex c) {b : Char}
    (hb : b ∈ ['+', '-', '_', 'x', 'X', ':', 'u', '\x7b', '\x7d']) : c ≠ b := by
  rintro rfl
  obtain ⟨a, ha⟩ := h
  exact
    (by
    decide : ∀ b ∈ ['+', '-', '_', 'x', 'X', ':', 'u', '\x7b', '\x7d'], ∀ a : Fin 16,
    b.toLower ≠ Nat.digitChar a) _ hb a ha

theorem IsHex.lt (h : IsHex c) : 32 < c.toNat ∧ c.toNat < 127 := by
  obtain ⟨a, ha⟩ := h
  rcases toLower_eq c with hupper | ⟨-, hsame⟩
  · omega
  · rw [← hsame, ha]
    exact (by decide : ∀ a : Fin 16, 32 < (Nat.digitChar a).toNat ∧ (Nat.digitChar a).toNat < 127) a

theorem IsHex.not_blank (h : IsHex c) : isBlank c = false := by
  have hlt := h.lt
  have hblank : c ≠ ' ' := by
    rintro rfl
    exact absurd hlt.1 (by decide)
  unfold isBlank
  rw [Bool.or_eq_false_iff, Bool.and_eq_false_iff, decide_eq_false_iff_not, decide_eq_false_iff_not,
    beq_eq_false_iff_ne]
  exact ⟨.inr (by omega), hblank⟩

theorem withoutSign_eq (h : '+' ∉ cs) : withoutSign cs = cs := by
  unfold withoutSign
  split
  · exact absurd List.mem_cons_self h
  · rfl

theorem withoutBase_eq (hx : 'x' ∉ cs) (hX : 'X' ∉ cs) : withoutBase cs = cs := by
  unfold withoutBase
  split
  · exact absurd (List.mem_cons_of_mem _ List.mem_cons_self) hx
  · exact absurd (List.mem_cons_of_mem _ List.mem_cons_self) hX
  · exact absurd (List.mem_cons_of_mem _ List.mem_cons_self) hx
  · exact absurd (List.mem_cons_of_mem _ List.mem_cons_self) hX
  · rfl

theorem mapM_some {α : Type} {f : α → Option α} {l : List α} (h : ∀ a ∈ l, f a = some a) :
    l.mapM f = some l := by
  induction l with
  | nil => rfl
  | cons a l ih =>
    rw [List.mapM_cons, h a List.mem_cons_self, ih fun b hb => h b (List.mem_cons_of_mem _ hb)]
    rfl

/-- The digits of a text without anything else are read as they are. -/
theorem intOfHex_eq (hhex : ∀ c ∈ cs, IsHex c) (hne : cs ≠ []) :
    intOfHex cs = Json.hexValue cs := by
  have hascii : cs.mapM asciiChar = some cs := by
    refine mapM_some fun c hc => ?_
    unfold asciiChar
    rw [if_pos (hhex c hc).lt.2]
  have hspace : stripChars isBlank cs = cs := stripChars_none fun c hc => (hhex c hc).not_blank
  have hunderscore : '_' ∉ cs := fun hmem => (hhex _ hmem).ne (by decide) rfl
  have hsign : withoutSign cs = cs := withoutSign_eq fun hmem => (hhex _ hmem).ne (by decide) rfl
  have hbase : withoutBase cs = cs :=
    withoutBase_eq (fun hmem => (hhex _ hmem).ne (by decide) rfl) fun hmem =>
      (hhex _ hmem).ne (by decide) rfl
  have hhead : (cs.head? == some '_') = false :=
    beq_eq_false_iff_ne.mpr fun h => hunderscore (List.mem_of_mem_head? h)
  have hlast : (cs.getLast? == some '_') = false :=
    beq_eq_false_iff_ne.mpr fun h => hunderscore (List.mem_of_getLast? h)
  have hpairs : (cs.zip cs.tail).contains ('_', '_') = false := by
    rw [← Bool.not_eq_true, List.contains_iff_mem]
    exact fun h => hunderscore (List.of_mem_zip h).1
  have hplain : cs.filter (· ≠ '_') = cs :=
    List.filter_eq_self.mpr fun c hc => decide_eq_true fun heq => hunderscore (heq ▸ hc)
  have hempty : cs.isEmpty = false := by
    rw [← Bool.not_eq_true, List.isEmpty_iff]
    exact hne
  unfold intOfHex
  rw [hascii, Option.bind_eq_bind, Option.bind_some, hspace, hsign, hbase]
  dsimp only
  rw [hempty, hhead, hlast, hpairs, hplain]
  rfl

end Hex

/-! ## Ids -/

structure UUID where
  int : Fin (2 ^ 128)
deriving DecidableEq

instance neZero_ids : NeZero (2 ^ 128) := ⟨by decide⟩

namespace UUID

def ofNat (n : Nat) : UUID := ⟨Fin.ofNat _ n⟩

/-- The groups of the canonical text. -/
def groups (u : UUID) : List (List Char) :=
  let hex := Json.hexDigits 32 u.int
  [hex.take 8, (hex.drop 8).take 4, (hex.drop 12).take 4, (hex.drop 16).take 4, hex.drop 20]

/-- `str(uuid)`. -/
def str (u : UUID) : String := String.ofList (['-'].intercalate u.groups)

/-- `text.replace(pattern, "")`; the number is of characters that are still to be skipped. -/
def without (pattern : List Char) : Nat → List Char → List Char
  | _, [] => []
  | skip + 1, _ :: cs => without pattern skip cs
  | 0, c :: cs =>
    if pattern.isPrefixOf (c :: cs) then without pattern (pattern.length - 1) cs
      else c :: without pattern 0 cs

/-- `UUID(text)`. -/
def parse (text : String) : Option UUID :=
  let plain := without ['u', 'u', 'i', 'd', ':'] 0 (without ['u', 'r', 'n', ':'] 0 text.toList)
  let hex := (stripChars (fun c => c == '\x7b' || c == '\x7d') plain).filter (· != '-')
  if hex.length = 32 then (intOfHex hex).map ofNat else none

theorem without_of_not_mem {pattern cs : List Char} {d : Char} (h : d ∉ cs) :
    without (d :: pattern) 0 cs = cs := by
  induction cs with
  | nil => rfl
  | cons c cs ih =>
    unfold without
    have hne : (d == c) = false := beq_eq_false_iff_ne.mpr fun heq => h (heq ▸ List.mem_cons_self)
    rw [List.isPrefixOf_cons_cons, hne, Bool.false_and, if_neg Bool.false_ne_true, ih fun hmem =>
      h (List.mem_cons_of_mem _ hmem)]

/-- Of digits and hyphens, the digits are read. -/
theorem parse_plain {text : List Char} (h : ∀ c ∈ text, c = '-' ∨ IsHex c)
    (hlength : (text.filter (· != '-')).length = 32) :
    parse (String.ofList text) = (Json.hexValue (text.filter (· != '-'))).map ofNat := by
  have hnot {b : Char} (hb : b ∈ ['+', '-', '_', 'x', 'X', ':', 'u', '\x7b', '\x7d'])
      (hdash : b ≠ '-') : b ∉ text := by
    intro hmem
    rcases h b hmem with heq | hhex
    · exact hdash heq
    · exact hhex.ne hb rfl
  have hplain : without ['u', 'u', 'i', 'd', ':'] 0 (without ['u', 'r', 'n', ':'] 0 text) =
      text := by
    rw [without_of_not_mem (hnot (by decide) (by decide)),
      without_of_not_mem (hnot (by decide) (by decide))]
  have hbraces : stripChars (fun c => c == '\x7b' || c == '\x7d') text = text := by
    refine stripChars_none fun c hc => ?_
    rw [Bool.or_eq_false_iff]
    exact ⟨beq_eq_false_iff_ne.mpr fun heq => hnot (by decide) (by decide) (heq ▸ hc),
      beq_eq_false_iff_ne.mpr fun heq => hnot (by decide) (by decide) (heq ▸ hc)⟩
  have hdigits (c : Char) (hc : c ∈ text.filter (· != '-')) : IsHex c := by
    obtain ⟨hmem, hdash⟩ := List.mem_filter.mp hc
    exact (h c hmem).resolve_left (bne_iff_ne.mp hdash)
  have hne : text.filter (· != '-') ≠ [] := by
    intro hnil
    rw [hnil] at hlength
    cases hlength
  unfold parse
  dsimp only
  rw [String.toList_ofList, hplain, hbraces, if_pos hlength, intOfHex_eq hdigits hne]

/-- The groups put together are the digits. -/
theorem groups_flatten (u : UUID) : u.groups.flatten = Json.hexDigits 32 u.int := by
  have hsplit (l : List Char) : l = l.take 8 ++ ((l.drop 8).take 4 ++ ((l.drop 12).take 4 ++
      ((l.drop 16).take 4 ++ l.drop 20))) := by
    conv_lhs => rw [← List.take_append_drop 8 l, ← List.take_append_drop 4 (l.drop 8),
      ← List.take_append_drop 4 ((l.drop 8).drop 4),
        ← List.take_append_drop 4 (((l.drop 8).drop 4).drop 4)]
    simp only [List.drop_drop]
  simp only [groups, List.flatten_cons, List.flatten_nil, List.append_nil]
  exact (hsplit _).symm

theorem groups_inj {u v : UUID} (h : u.groups = v.groups) : u = v := by
  have hhex : Json.hexDigits 32 u.int = Json.hexDigits 32 v.int := by
    rw [← groups_flatten, ← groups_flatten, h]
  obtain ⟨⟨n, hn⟩⟩ := u
  obtain ⟨⟨m, hm⟩⟩ := v
  have hnm : n = m := Json.hexDigits_inj (by rwa [show 16 ^ 32 = 2 ^ 128 by decide])
    (by rwa [show 16 ^ 32 = 2 ^ 128 by decide]) hhex
  subst hnm
  rfl

/-- Every UUID has a text of its own. -/
theorem str_inj {u v : UUID} (h : u.str = v.str) : u = v := by
  refine groups_inj ?_
  have hlist := String.ofList_inj.mp h
  have hlen (w : UUID) : (Json.hexDigits 32 w.int).length = 32 := Json.hexDigits_length _ _
  simp only [groups, List.intercalate, List.intersperse, List.flatten_cons, List.flatten_nil,
    List.append_nil] at hlist ⊢
  obtain ⟨h₁, hlist⟩ := List.append_inj hlist (by simp [hlen])
  obtain ⟨h₂, hlist⟩ := List.append_inj (List.append_cancel_left hlist) (by simp [hlen])
  obtain ⟨h₃, hlist⟩ := List.append_inj (List.append_cancel_left hlist) (by simp [hlen])
  obtain ⟨h₄, hlist⟩ := List.append_inj (List.append_cancel_left hlist) (by simp [hlen])
  rw [h₁, h₂, h₃, h₄, List.append_cancel_left hlist]

theorem mem_str {u : UUID} {c : Char} (hc : c ∈ u.str.toList) :
    c = '-' ∨ ∃ a : Fin 16, c = Nat.digitChar a := by
  unfold str at hc
  rw [String.toList_ofList] at hc
  rcases mem_intercalate hc with h | h
  · exact .inl (List.mem_singleton.mp h)
  · rw [groups_flatten] at h
    exact .inr (Json.mem_hexDigits h)

/-- The canonical text without its hyphens. -/
theorem str_digits (u : UUID) : u.str.toList.filter (· != '-') = Json.hexDigits 32 u.int := by
  have hplain (c : Char) (hc : c ∈ Json.hexDigits 32 u.int) : (c != '-') = true := by
    obtain ⟨a, rfl⟩ := Json.mem_hexDigits hc
    exact (by decide : ∀ a : Fin 16, (Nat.digitChar a != '-') = true) a
  have hgroup (g : List Char) (hg : g ∈ u.groups) : g.filter (· != '-') = g :=
    List.filter_eq_self.mpr fun c hc => hplain c (by
      rw [← groups_flatten]
      exact List.mem_flatten_of_mem hg hc)
  rw [str, String.toList_ofList, ← groups_flatten]
  have hfilter (gs : List (List Char)) (hgs : ∀ g ∈ gs, g.filter (· != '-') = g) :
      (['-'].intercalate gs).filter (· != '-') = gs.flatten := by
    induction gs with
    | nil => rfl
    | cons g gs ih =>
      have hrest := ih fun g' hg' => hgs g' (List.mem_cons_of_mem _ hg')
      have hhead := hgs g List.mem_cons_self
      cases gs with
      | nil => simpa [List.intercalate] using hhead
      | cons g' gs =>
        simp only [List.intercalate, List.intersperse_cons_cons, List.flatten_cons,
          List.filter_append] at hrest ⊢
        rw [hhead, hrest]
        rfl
  exact hfilter u.groups hgroup

theorem hexValue_digits (u : UUID) :
    (Json.hexValue (Json.hexDigits 32 u.int)).map ofNat = some u := by
  rw [Json.hexValue_hexDigits, Option.map_some]
  obtain ⟨⟨n, hn⟩⟩ := u
  have hmod : n % 16 ^ 32 = n := Nat.mod_eq_of_lt (by rwa [show 16 ^ 32 = 2 ^ 128 by decide])
  rw [hmod]
  exact congrArg (fun int => some (UUID.mk int)) (Fin.ext (Nat.mod_eq_of_lt hn))

theorem isHex_digit (a : Fin 16) : IsHex (Nat.digitChar a) :=
  ⟨a, (by decide : ∀ a : Fin 16, (Nat.digitChar a).toLower = Nat.digitChar a) a⟩

/-- The canonical text reads back. -/
theorem parse_str (u : UUID) : parse u.str = some u := by
  have hchars (c : Char) (hc : c ∈ u.str.toList) : c = '-' ∨ IsHex c := by
    rcases mem_str hc with hdash | ⟨a, rfl⟩
    · exact .inl hdash
    · exact .inr (isHex_digit a)
  have hlength : (u.str.toList.filter (· != '-')).length = 32 := by
    rw [str_digits, Json.hexDigits_length]
  have hparse := parse_plain hchars hlength
  rw [String.ofList_toList, str_digits, hexValue_digits] at hparse
  exact hparse

end UUID

end ProjectAgent
