/-
The JSON text of a flat object: `json.dumps` with `ensure_ascii=False`,
`sort_keys=True` and compact separators, for members that are strings or
null. Equal texts are of the same members (`dumps_perm`), so a digest of the
text is a digest of the object.
-/
import Mathlib.Algebra.Group.Nat.Defs
import Mathlib.Data.List.Sort

namespace Json

def hexDigits : Nat → Nat → List Char
  | 0, _ => []
  | width + 1, n => hexDigits width (n / 16) ++ [Nat.digitChar (n % 16)]

theorem hexDigits_length (width n : Nat) : (hexDigits width n).length = width := by
  induction width generalizing n with
  | zero => rfl
  | succ width ih => simp [hexDigits, ih]

theorem digitChar_inj : ∀ a b : Fin 16, Nat.digitChar a = Nat.digitChar b → a = b := by
  decide

theorem hexDigits_inj {width n m : Nat} (hn : n < 16 ^ width) (hm : m < 16 ^ width)
    (h : hexDigits width n = hexDigits width m) : n = m := by
  induction width generalizing n m with
  | zero => omega
  | succ width ih =>
    obtain ⟨hinit, hlast⟩ := List.append_inj h (by simp [hexDigits_length])
    have hdiv : n / 16 = m / 16 := by
      refine ih ?_ ?_ hinit
      · rw [Nat.div_lt_iff_lt_mul (by decide), ← Nat.pow_succ]
        exact hn
      · rw [Nat.div_lt_iff_lt_mul (by decide), ← Nat.pow_succ]
        exact hm
    have hmod := digitChar_inj ⟨n % 16, Nat.mod_lt _ (by decide)⟩ ⟨m % 16, Nat.mod_lt _ (by decide)⟩
      (by simpa using hlast)
    have hmod : n % 16 = m % 16 := congrArg Fin.val hmod
    omega

/-- The number the digits are of, in either case. -/
def hexValue (digits : List Char) : Option Nat :=
  digits.foldlM (fun n c => ((List.range 16).find? (Nat.digitChar · == c.toLower)).map
    (16 * n + ·)) 0

theorem find_digitChar : ∀ a : Fin 16,
    ((List.range 16).find? fun n => Nat.digitChar n == (Nat.digitChar a).toLower) = some a.val := by
  decide

theorem hexValue_hexDigits (width n : Nat) :
    hexValue (hexDigits width n) = some (n % 16 ^ width) := by
  induction width generalizing n with
  | zero => simp [hexDigits, hexValue, Nat.mod_one]
  | succ width ih =>
    have hfind := find_digitChar ⟨n % 16, Nat.mod_lt _ (by decide)⟩
    have hinit := ih (n / 16)
    unfold hexValue at hinit ⊢
    rw [hexDigits, List.foldlM_append, hinit]
    simp only [Option.bind_eq_bind, Option.bind_some, List.foldlM_cons, List.foldlM_nil, hfind,
      Option.map_some,
      Option.pure_def]
    have hpow : n % 16 ^ (width + 1) = n % 16 + 16 * (n / 16 % 16 ^ width) := by
      rw [Nat.pow_succ', Nat.mod_mul]
    rw [hpow, Nat.add_comm]

theorem mem_hexDigits {width n : Nat} {c : Char} (h : c ∈ hexDigits width n) :
    ∃ a : Fin 16, c = Nat.digitChar a := by
  induction width generalizing n with
  | zero => cases h
  | succ width ih =>
    rcases List.mem_append.mp h with h | h
    · exact ih h
    · exact ⟨⟨n % 16, Nat.mod_lt _ (by decide)⟩, List.mem_singleton.mp h⟩

/-- One character inside a string literal. -/
def escape (c : Char) : List Char :=
  if c = '"' then ['\\', '"']
  else if c = '\\' then ['\\', '\\']
  else if c = '\n' then ['\\', 'n']
  else if c = '\r' then ['\\', 'r']
  else if c = '\t' then ['\\', 't']
  else if c.toNat = 0x08 then ['\\', 'b']
  else if c.toNat = 0x0c then ['\\', 'f']
  else if c.toNat < 0x20 then '\\' :: 'u' :: hexDigits 4 c.toNat
  else [c]

/-- Reads one character of a string literal back, by its first two; those of
a `\\u` escape are compared with every control character's. -/
def unescape : List Char → Option Char
  | '\\' :: '"' :: _ => some '"'
  | '\\' :: '\\' :: _ => some '\\'
  | '\\' :: 'n' :: _ => some '\n'
  | '\\' :: 'r' :: _ => some '\r'
  | '\\' :: 't' :: _ => some '\t'
  | '\\' :: 'b' :: _ => some (Char.ofNat 0x08)
  | '\\' :: 'f' :: _ => some (Char.ofNat 0x0c)
  | '\\' :: 'u' :: r => ((List.range 0x20).find? fun n => hexDigits 4 n == r.take 4).map Char.ofNat
  | c :: _ => some c
  | [] => none

theorem find_hexDigits : ∀ n : Fin 0x20,
    ((List.range 0x20).find? fun m => hexDigits 4 m == hexDigits 4 n) = some n.val := by
  decide

theorem unescape_escape (c : Char) (r : List Char) : unescape (escape c ++ r) = some c := by
  have hchar {n : Nat} (h : c.toNat = n) : Char.ofNat n = c := by rw [← h, Char.ofNat_toNat]
  unfold escape
  split_ifs with h₁ h₂ h₃ h₄ h₅ h₆ h₇ h₈
  · simp [unescape, h₁]
  · simp [unescape, h₂]
  · simp [unescape, h₃]
  · simp [unescape, h₄]
  · simp [unescape, h₅]
  · simpa [unescape] using hchar h₆
  · simpa [unescape] using hchar h₇
  · have htake : (hexDigits 4 c.toNat ++ r).take 4 = hexDigits 4 c.toNat := by
      rw [List.take_append_of_le_length (by rw [hexDigits_length]),
        List.take_of_length_le (by rw [hexDigits_length])]
    have hfind := find_hexDigits ⟨c.toNat, h₈⟩
    simp only [List.cons_append, unescape, htake]
    rw [hfind]
    simp [hchar rfl]
  · unfold unescape
    split <;> simp_all

/-- A code no word of which is a proper beginning of another's. -/
def PrefixCode {α : Type} (f : α → List Char) : Prop :=
  ∀ ⦃a b r s⦄, f a ++ r = f b ++ s → a = b ∧ r = s

theorem escape_prefixCode : PrefixCode escape := by
  intro a b r s h
  have hab : a = b := by
    have := congrArg unescape h
    rw [unescape_escape, unescape_escape] at this
    exact Option.some.inj this
  subst hab
  exact ⟨rfl, List.append_cancel_left h⟩

/-- No character is written with a bare quote first. -/
theorem escape_ne_quote (c : Char) (r s : List Char) : escape c ++ r ≠ '"' :: s := by
  unfold escape
  split_ifs <;> simp_all

def escapeAll (cs : List Char) : List Char := cs.flatMap escape

theorem escapeAll_prefixCode : PrefixCode fun cs => escapeAll cs ++ ['"'] := by
  intro as bs r s h
  induction as generalizing bs with
  | nil =>
    cases bs with
    | nil => simpa [escapeAll] using h
    | cons b bs =>
      refine absurd ?_ (escape_ne_quote b (escapeAll bs ++ '"' :: s) r)
      simpa [escapeAll] using h.symm
  | cons a as ih =>
    cases bs with
    | nil =>
      refine absurd ?_ (escape_ne_quote a (escapeAll as ++ '"' :: r) s)
      simpa [escapeAll] using h
    | cons b bs =>
      obtain ⟨rfl, hrest⟩ := escape_prefixCode (a := a) (b := b)
        (r := escapeAll as ++ ['"'] ++ r) (s := escapeAll bs ++ ['"'] ++ s)
          (by simpa [escapeAll] using h)
      obtain ⟨rfl, rfl⟩ := ih hrest
      exact ⟨rfl, rfl⟩

/-! ## Members and objects -/

/-- `json.dumps` of a `str`. -/
def encodeString (s : String) : List Char := '"' :: (escapeAll s.toList ++ ['"'])

/-- `json.dumps` of a `str | None`. -/
def encodeValue : Option String → List Char
  | none => ['n', 'u', 'l', 'l']
  | some s => encodeString s

abbrev Member := String × Option String

def encodeMember (m : Member) : List Char := encodeString m.1 ++ ':' :: encodeValue m.2

/-- The members after the first, and the closing brace. -/
def encodeRest : List Member → List Char
  | [] => [Char.ofNat 0x7d]
  | m :: ms => ',' :: (encodeMember m ++ encodeRest ms)

def encodeObject : List Member → List Char
  | [] => [Char.ofNat 0x7b, Char.ofNat 0x7d]
  | m :: ms => Char.ofNat 0x7b :: (encodeMember m ++ encodeRest ms)

/-- `json.dumps(members, ensure_ascii=False, sort_keys=True, separators=(",", ":"))`,
as the characters of the text. -/
def dumps (members : List Member) : List Char :=
  encodeObject (members.insertionSort fun a b => a.1 ≤ b.1)

theorem encodeString_prefixCode : PrefixCode encodeString := by
  intro a b r s h
  obtain ⟨hab, hrs⟩ := escapeAll_prefixCode (a := a.toList) (b := b.toList) (r := r) (s := s)
    (by simpa [encodeString] using h)
  exact ⟨String.toList_inj.mp hab, hrs⟩

theorem encodeValue_prefixCode : PrefixCode encodeValue := by
  rintro (_ | a) (_ | b) r s h
  · exact ⟨rfl, by simpa [encodeValue] using h⟩
  · simp [encodeValue, encodeString] at h
  · simp [encodeValue, encodeString] at h
  · obtain ⟨rfl, hrs⟩ := encodeString_prefixCode h
    exact ⟨rfl, hrs⟩

theorem encodeMember_prefixCode : PrefixCode encodeMember := by
  rintro ⟨k, v⟩ ⟨k', v'⟩ r s h
  obtain ⟨rfl, hrest⟩ := encodeString_prefixCode (a := k) (b := k')
    (r := ':' :: (encodeValue v ++ r)) (s := ':' :: (encodeValue v' ++ s))
      (by simpa [encodeMember] using h)
  obtain ⟨rfl, hrs⟩ := encodeValue_prefixCode (List.cons.inj hrest).2
  exact ⟨rfl, hrs⟩

theorem encodeRest_inj {ms ns : List Member} (h : encodeRest ms = encodeRest ns) : ms = ns := by
  induction ms generalizing ns with
  | nil =>
    cases ns with
    | nil => rfl
    | cons n ns => exact absurd (List.cons.inj h).1 (by decide)
  | cons m ms ih =>
    cases ns with
    | nil => exact absurd (List.cons.inj h).1 (by decide)
    | cons n ns =>
      obtain ⟨rfl, hrest⟩ := encodeMember_prefixCode (List.cons.inj h).2
      rw [ih hrest]

theorem encodeObject_inj {ms ns : List Member} (h : encodeObject ms = encodeObject ns) :
    ms = ns := by
  have hbrace (m : Member) (ms : List Member) : encodeMember m ++ encodeRest ms ≠
      [Char.ofNat 0x7d] := by
    simp [encodeMember, encodeString]
  cases ms with
  | nil =>
    cases ns with
    | nil => rfl
    | cons n ns => exact absurd (List.cons.inj h).2.symm (hbrace n ns)
  | cons m ms =>
    cases ns with
    | nil => exact absurd (List.cons.inj h).2 (hbrace m ms)
    | cons n ns =>
      obtain ⟨rfl, hrest⟩ := encodeMember_prefixCode (List.cons.inj h).2
      rw [encodeRest_inj hrest]

/-- Equal texts are of the same members. -/
theorem dumps_perm {ms ns : List Member} (h : dumps ms = dumps ns) : ms.Perm ns := by
  have hsorted := encodeObject_inj h
  exact (List.perm_insertionSort _ ms).symm.trans (hsorted ▸ List.perm_insertionSort _ ns)

end Json
