import Mathlib
import TournamentDraw.Value.Json

/-!
# Reading back what JSON writing wrote

`Json.write` writes a value as JSON text and `Json.read` reads one back. Reading gives back
what was written for every value that JSON writes faithfully (`Json.plain`): one with no
binary64 number, whose integers have at most 4300 digits, whose texts are texts that reading
can give (code points below `U+110000`, with no high surrogate right before a low one, which
reading would join into one code point), and whose objects name each member once.

The readers work on the characters of a text by position. Each gets one lemma: at a position
from which the text holds what the writer wrote, followed by text that cannot extend it, the
reader reads that back and stops right after it. The value reader is fuelled by a count that
it spends one at a time on nested lists and objects; the fuel `Json.read` gives it is more than
the length of the text, and the three readers of values, items and members are proved
together by induction on the fuel.
-/

namespace TournamentDraw

/-- Setting a key that no entry has appends an entry for it. -/
theorem assocSet_of_not_mem {β : Type} {entries : List (String × β)} {key : String}
    (h : ∀ e ∈ entries, e.1 ≠ key) (x : β) :
    assocSet entries key x = entries ++ [(key, x)] := by
  have : entries.any (·.1 == key) = false := by
    simpa using fun a b hab => h (a, b) hab
  simp [assocSet, this]

namespace Json

/-! ### Values that JSON writes faithfully -/

/-- No high surrogate stands right before a low one. Reading an escaped text joins such a pair
into one code point. -/
def unjoined : List Nat → Bool
  | a :: b :: rest =>
    !(0xD800 ≤ a && a ≤ 0xDBFF && 0xDC00 ≤ b && b ≤ 0xDFFF) && unjoined (b :: rest)
  | _ => true

/-- A text that reading JSON can give: the text of its own code points, with no high surrogate
right before a low one. -/
def plainText (t : String) : Bool :=
  Text.ofCodePoints (Text.codePoints t) == t && unjoined (Text.codePoints t)

mutual

/-- Whether JSON writes a value faithfully: no binary64 number, integers of at most 4300
digits, texts that reading can give, and objects that name each member once. -/
def plain : Value → Bool
  | .null => true
  | .bool _ => true
  | .int n => decide ((Nat.toDigits 10 n.natAbs).length ≤ 4300)
  | .float _ => false
  | .str t => plainText t
  | .list xs => plainItems xs
  | .obj fs => (fs.map (·.1)).Nodup && plainMembers fs

/-- Whether every item of a list is written faithfully. -/
def plainItems : List Value → Bool
  | [] => true
  | x :: xs => plain x && plainItems xs

/-- Whether every member of an object is written faithfully, its name included. -/
def plainMembers : List (String × Value) → Bool
  | [] => true
  | (k, v) :: fs => plainText k && plain v && plainMembers fs

end

/-! ### Positions in a text -/

section Positions

variable {s : Array Char} {i : Nat} {c : Char} {w rest : List Char}

theorem getElem?_of_drop (h : s.toList.drop i = c :: rest) : s[i]? = some c := by
  have h0 := congrArg (·[0]?) h
  simp only [List.getElem?_drop, Nat.add_zero, List.getElem?_cons_zero,
    Array.getElem?_toList] at h0
  exact h0

theorem charAt_of_drop (h : s.toList.drop i = c :: rest) : charAt s i = c := by
  rw [charAt, getElem?_of_drop h]
  rfl

theorem charAt_of_drop_nil (h : s.toList.drop i = []) : charAt s i = '\x00' := by
  have hlen := congrArg List.length h
  rw [List.length_drop, List.length_nil] at hlen
  have hnone : s[i]? = none :=
    Array.getElem?_eq_none (by rw [Array.size_eq_length_toList]; omega)
  rw [charAt, hnone]
  rfl

theorem lt_size_of_drop (h : s.toList.drop i = c :: rest) : i < s.size := by
  have hlen := congrArg List.length h
  rw [List.length_drop, List.length_cons] at hlen
  rw [Array.size_eq_length_toList]
  omega

theorem drop_add_of_drop (h : s.toList.drop i = w ++ rest) :
    s.toList.drop (i + w.length) = rest := by
  rw [← List.drop_drop, h, List.drop_left]

theorem drop_succ_of_drop (h : s.toList.drop i = c :: rest) : s.toList.drop (i + 1) = rest :=
  drop_add_of_drop (w := [c]) h

theorem drop_add_length_of_drop {t : String} (h : s.toList.drop i = t.toList ++ rest) :
    s.toList.drop (i + t.length) = rest := by
  rw [← String.length_toList]
  exact drop_add_of_drop h

/-- The characters from a position spell what they start with. -/
theorem spells_of_drop {t : String} (h : s.toList.drop i = t.toList ++ rest) :
    spells s i t = true := by
  rw [spells, Array.toList_extract, List.extract_eq_take_drop, h, Nat.add_sub_cancel_left,
    ← String.length_toList, List.take_left]
  simp

/-- Characters that do not start with a word do not spell it. -/
theorem spells_eq_false {t : String} (h : ¬ t.toList <+: s.toList.drop i) :
    spells s i t = false := by
  rw [Bool.eq_false_iff]
  intro hs
  rw [spells, Array.toList_extract, List.extract_eq_take_drop, Nat.add_sub_cancel_left,
    beq_iff_eq, ← String.length_toList] at hs
  exact h (hs ▸ List.take_prefix _ _)

/-- The blank skipper passes over the blanks from a position and stops at the first character
that is not one, or at the end. -/
theorem skipBlank_go_of_drop {blanks : List Char} (hb : ∀ c ∈ blanks, isBlank c = true)
    (hr : ∀ c r, rest = c :: r → isBlank c = false) :
    ∀ (fuel i : Nat), s.toList.drop i = blanks ++ rest → blanks.length < fuel →
      skipBlank.go s fuel i = i + blanks.length := by
  induction blanks with
  | nil =>
    intro fuel i h hf
    obtain ⟨f, rfl⟩ : ∃ f, fuel = f + 1 := ⟨fuel - 1, by simp at hf; omega⟩
    rw [skipBlank.go]
    cases rest with
    | nil =>
      have hlen := congrArg List.length h
      simp only [List.length_drop, List.append_nil, List.length_nil] at hlen
      have hsize : s.size ≤ i := by
        rw [Array.size_eq_length_toList]
        omega
      simp [Array.getElem?_eq_none hsize]
    | cons c r =>
      rw [getElem?_of_drop h]
      simp [hr c r rfl]
  | cons b bs ih =>
    intro fuel i h hf
    obtain ⟨f, rfl⟩ : ∃ f, fuel = f + 1 := ⟨fuel - 1, by simp at hf; omega⟩
    rw [skipBlank.go, getElem?_of_drop h]
    simp only [Option.map_some, Option.getD_some, hb b List.mem_cons_self, if_true]
    rw [ih (fun c hc => hb c (List.mem_cons_of_mem b hc)) f (i + 1) (drop_succ_of_drop h)
      (by simp at hf; omega)]
    simp only [List.length_cons]
    omega

theorem skipBlank_of_drop {blanks : List Char} (h : s.toList.drop i = blanks ++ rest)
    (hb : ∀ c ∈ blanks, isBlank c = true) (hr : ∀ c r, rest = c :: r → isBlank c = false) :
    skipBlank s i = i + blanks.length := by
  apply skipBlank_go_of_drop hb hr _ i h
  have hlen := congrArg List.length h
  rw [List.length_drop, List.length_append] at hlen
  rw [Array.size_eq_length_toList]
  omega

theorem skipBlank_of_head {c : Char} {w : List Char} (h : s.toList.drop i = c :: w)
    (hc : isBlank c = false) : skipBlank s i = i :=
  skipBlank_of_drop (show s.toList.drop i = [] ++ c :: w from h) (by simp)
    (by rintro c' r ⟨⟩; exact hc)

theorem skipBlank_space {c : Char} {w : List Char} (h : s.toList.drop i = ' ' :: c :: w)
    (hc : isBlank c = false) : skipBlank s i = i + 1 :=
  skipBlank_of_drop (show s.toList.drop i = [' '] ++ c :: w from h) (by simp; rfl)
    (by rintro c' r ⟨⟩; exact hc)

/-- A run of digits followed by a character that is not one is read whole. -/
theorem digitsFrom_of_drop {ds : List Char} (h : s.toList.drop i = ds ++ rest)
    (hd : ∀ c ∈ ds, c.isDigit = true) (hr : ∀ c r, rest = c :: r → c.isDigit = false) :
    digitsFrom s i = (ds, i + ds.length) := by
  have hrest : rest.takeWhile Char.isDigit = [] := by
    cases rest with
    | nil => rfl
    | cons c r => simp [hr c r rfl]
  have hds : (s.extract i s.size).toList.takeWhile Char.isDigit = ds := by
    rw [Array.toList_extract, List.extract_eq_take_drop, Array.size_eq_length_toList,
      List.take_of_length_le (by simp), h, List.takeWhile_append_of_pos hd, hrest,
      List.append_nil]
  simp only [digitsFrom, hds]

end Positions

/-! ### Decimal and hexadecimal numerals -/

section Numerals

theorem toList_toString_int (n : Int) :
    (toString n).toList = (if n < 0 then ['-'] else []) ++ Nat.toDigits 10 n.natAbs := by
  cases n with
  | ofNat m => simp [toString, Int.repr, Nat.toList_repr]
  | negSucc m => simp [toString, Int.repr, Nat.toList_repr, Int.natAbs_negSucc]

theorem isDigit_of_mem_toDigits_ten {m : Nat} {c : Char} (h : c ∈ Nat.toDigits 10 m) :
    c.isDigit = true :=
  Nat.isDigit_of_mem_toDigits (by norm_num) le_rfl h

/-- Splitting off the last digit of a numeral. -/
theorem toDigits_eq_append {b m : Nat} (hb : 1 < b) (hm : b ≤ m) :
    Nat.toDigits b m = Nat.toDigits b (m / b) ++ [Nat.digitChar (m % b)] := by
  rw [← Nat.toDigits_of_lt_base (Nat.mod_lt m (by omega)),
    Nat.toDigits_append_toDigits hb (Nat.div_pos hm (by omega)) (Nat.mod_lt m (by omega)),
    Nat.div_add_mod]

/-- A positive number's numeral does not start with a zero. -/
theorem head?_toDigits_ten {m : Nat} (hm : 0 < m) : (Nat.toDigits 10 m).head? ≠ some '0' := by
  induction m using Nat.strong_induction_on with
  | _ m ih =>
    by_cases hlt : m < 10
    · rw [Nat.toDigits_of_lt_base hlt, List.head?_cons, ne_eq, Option.some.injEq]
      have hdigit : ∀ d < 10, d ≠ 0 → Nat.digitChar d ≠ '0' := by decide
      exact hdigit m hlt (by omega)
    · rw [toDigits_eq_append (by norm_num) (by omega), List.head?_append_of_ne_nil _
        Nat.toDigits_ne_nil]
      exact ih (m / 10) (by omega) (by omega)

theorem digitsValue_toDigits (m : Nat) : digitsValue (Nat.toDigits 10 m) = m :=
  Nat.ofDigitChars_ten_toDigits

/-- Four hexadecimal digits write every number below `0x10000`, the leading ones zeros. -/
theorem hexPadded_four {n : Nat} (hn : n < 0x10000) :
    (Text.hexPadded 4 n).toList = [Nat.digitChar (n / 4096), Nat.digitChar (n / 256 % 16),
      Nat.digitChar (n / 16 % 16), Nat.digitChar (n % 16)] := by
  have h16 : ∀ {m : Nat}, 16 ≤ m → Nat.toDigits 16 m =
      Nat.toDigits 16 (m / 16) ++ [Nat.digitChar (m % 16)] := toDigits_eq_append (by norm_num)
  have hzero : Nat.digitChar 0 = '0' := rfl
  rw [Text.hexPadded, String.toList_ofList]
  -- one case per number of significant digits
  rcases (show n < 16 ∨ (16 ≤ n ∧ n < 256) ∨ (256 ≤ n ∧ n < 4096) ∨ 4096 ≤ n by omega) with
    h | ⟨h1, h⟩ | ⟨h1, h⟩ | h1
  · rw [Nat.toDigits_of_lt_base h, show n / 4096 = 0 by omega, show n / 256 % 16 = 0 by omega,
      show n / 16 % 16 = 0 by omega, Nat.mod_eq_of_lt h, hzero]
    rfl
  · rw [h16 h1, Nat.toDigits_of_lt_base (show n / 16 < 16 by omega),
      show n / 4096 = 0 by omega, show n / 256 % 16 = 0 by omega,
      show n / 16 % 16 = n / 16 by omega, hzero]
    rfl
  · rw [h16 (by omega), h16 (show 16 ≤ n / 16 by omega),
      Nat.toDigits_of_lt_base (show n / 16 / 16 < 16 by omega), show n / 4096 = 0 by omega,
      show n / 256 % 16 = n / 16 / 16 by omega, hzero]
    rfl
  · rw [h16 (by omega), h16 (show 16 ≤ n / 16 by omega), h16 (show 16 ≤ n / 16 / 16 by omega),
      Nat.toDigits_of_lt_base (show n / 16 / 16 / 16 < 16 by omega),
      show n / 4096 = n / 16 / 16 / 16 by omega, show n / 256 % 16 = n / 16 / 16 % 16 by omega]
    rfl

theorem length_hexPadded_four {n : Nat} (hn : n < 0x10000) :
    (Text.hexPadded 4 n).toList.length = 4 := by
  rw [hexPadded_four hn]
  rfl

/-- Four hexadecimal digits are read as the number they write. -/
theorem hex4_of_drop {s : Array Char} {i n : Nat} {rest : List Char} (hn : n < 0x10000)
    (h : s.toList.drop i = (Text.hexPadded 4 n).toList ++ rest) : hex4 s i = some n := by
  have hv : ∀ d < 16, hexValue (Nat.digitChar d) = some d := by decide
  rw [hexPadded_four hn] at h
  have h₁ := drop_succ_of_drop h
  have h₂ := drop_succ_of_drop h₁
  have h₃ := drop_succ_of_drop h₂
  simp only [hex4, List.foldlM_cons, List.foldlM_nil, Nat.add_zero, charAt_of_drop h,
    charAt_of_drop h₁, charAt_of_drop h₂, charAt_of_drop h₃, hv _ (show n / 4096 < 16 by omega),
    hv _ (Nat.mod_lt _ (by norm_num) : n / 256 % 16 < 16),
    hv _ (Nat.mod_lt _ (by norm_num) : n / 16 % 16 < 16),
    hv _ (Nat.mod_lt _ (by norm_num) : n % 16 < 16)]
  simp only [Option.map_some, Option.bind_eq_bind, Option.bind_some, Option.pure_def]
  rw [Option.some.injEq]
  omega

theorem digit_props {c : Char} (h : c.isDigit = true) :
    isBlank c = false ∧ c ≠ ']' ∧ c ≠ '}' ∧ c ≠ ',' ∧ c ≠ '.' ∧ c ≠ 'e' ∧ c ≠ 'E' ∧ c ≠ '-' ∧
      c ≠ '"' ∧ c ≠ '{' ∧ c ≠ '[' := by
  simp only [Char.isDigit, Bool.and_eq_true, decide_eq_true_eq] at h
  have h1 : 48 ≤ c.toNat := h.1
  have h2 : c.toNat ≤ 57 := h.2
  have hne : ∀ d : Char, (d.toNat < 48 ∨ 57 < d.toNat) → c ≠ d := by
    rintro d hd rfl
    omega
  refine ⟨?_, hne _ (by decide), hne _ (by decide), hne _ (by decide), hne _ (by decide),
    hne _ (by decide), hne _ (by decide), hne _ (by decide), hne _ (by decide), hne _ (by decide),
    hne _ (by decide)⟩
  simp only [isBlank, Bool.or_eq_false_iff, beq_eq_false_iff_ne]
  exact ⟨⟨⟨hne _ (by decide), hne _ (by decide)⟩, hne _ (by decide)⟩, hne _ (by decide)⟩

end Numerals

/-- What may follow a value in written JSON: nothing, a comma, or the end of a list or object.
None of it can continue the value. -/
def Stops (rest : List Char) : Prop :=
  ∀ c r, rest = c :: r → c = ',' ∨ c = ']' ∨ c = '}'

theorem Stops.not_blank {rest : List Char} (h : Stops rest) :
    ∀ c r, rest = c :: r → isBlank c = false := by
  intro c r hc
  rcases h c r hc with rfl | rfl | rfl <;> rfl

section Numbers

variable {s : Array Char} {i : Nat} {rest : List Char}

/-- A sign, the digits of `m`, and a character that cannot continue a number are read as the
integer they write. -/
theorem readNumber_of_digits {j m : Nat} {neg : Bool} (hneg : (charAt s i == '-') = neg)
    (hj : (if neg then i + 1 else i) = j) (hd : s.toList.drop j = Nat.toDigits 10 m ++ rest)
    (hr : Stops rest) :
    readNumber s i =
      some (.int (if neg then -(m : Int) else m), j + (Nat.toDigits 10 m).length) := by
  have hk := drop_add_of_drop hd
  -- the character after the digits ends the number
  have hstop : (charAt s (j + (Nat.toDigits 10 m).length) == '.') = false ∧
      (charAt s (j + (Nat.toDigits 10 m).length) == 'e' ||
        charAt s (j + (Nat.toDigits 10 m).length) == 'E') = false := by
    cases rest with
    | nil => rw [charAt_of_drop_nil hk]; decide
    | cons c r =>
      rw [charAt_of_drop hk]
      rcases hr c r rfl with rfl | rfl | rfl <;> decide
  -- a lone zero is read as itself, any other numeral up to its last digit
  have hint : (if charAt s j == '0' then (['0'], j + 1) else digitsFrom s j) =
      (Nat.toDigits 10 m, j + (Nat.toDigits 10 m).length) := by
    by_cases hm : m = 0
    · subst hm
      rw [show Nat.toDigits 10 0 = ['0'] from rfl] at hd ⊢
      rw [charAt_of_drop hd]
      rfl
    · obtain ⟨c, cs, hc⟩ := List.exists_cons_of_ne_nil (Nat.toDigits_ne_nil (n := m) (b := 10))
      have hc0 : c ≠ '0' := fun h0 => head?_toDigits_ten (Nat.pos_of_ne_zero hm) (by rw [hc, h0]; rfl)
      have hcd := hd
      rw [hc, List.cons_append] at hcd
      rw [charAt_of_drop hcd, if_neg (by simpa using hc0)]
      refine digitsFrom_of_drop hd (fun _ h => isDigit_of_mem_toDigits_ten h) ?_
      intro c' r hr'
      rcases hr c' r hr' with rfl | rfl | rfl <;> rfl
  have hne : (Nat.toDigits 10 m).isEmpty = false := by simp [Nat.toDigits_ne_nil]
  simp only [readNumber, hneg, hj, hint, hstop.1, hstop.2, Bool.false_eq_true, if_false,
    List.isEmpty_nil, Bool.not_true, List.append_nil, digitsValue_toDigits, hne,
    Bool.not_false, and_self, if_true]

/-- An integer written in decimal, followed by what may follow a value, is read back. -/
theorem readNumber_of_drop {n : Int} (h : s.toList.drop i = (toString n).toList ++ rest)
    (hr : Stops rest) : readNumber s i = some (.int n, i + (toString n).length) := by
  rw [toList_toString_int] at h
  by_cases hn : n < 0
  · rw [if_pos hn] at h
    have hsign : (charAt s i == '-') = true := by
      rw [charAt_of_drop h]
      rfl
    rw [readNumber_of_digits hsign (if_pos rfl) (drop_succ_of_drop h) hr, ← String.length_toList,
      toList_toString_int, if_pos hn]
    simp only [if_true, List.length_append, List.length_cons, List.length_nil,
      Int.natCast_natAbs, abs_of_neg hn, neg_neg]
    congr 2
    omega
  · rw [if_neg hn, List.nil_append] at h
    have hsign : (charAt s i == '-') = false := by
      obtain ⟨c, cs, hc⟩ := List.exists_cons_of_ne_nil (Nat.toDigits_ne_nil (n := n.natAbs) (b := 10))
      have hcd := h
      rw [hc, List.cons_append] at hcd
      rw [charAt_of_drop hcd]
      have hdig := isDigit_of_mem_toDigits_ten (hc ▸ List.mem_cons_self : c ∈ Nat.toDigits 10 n.natAbs)
      simp only [beq_eq_false_iff_ne, ne_eq]
      rintro rfl
      exact absurd hdig (by decide)
    rw [readNumber_of_digits hsign (if_neg (by simp)) h hr, ← String.length_toList,
      toList_toString_int, if_neg hn]
    simp only [Bool.false_eq_true, if_false, List.nil_append, Int.natCast_natAbs,
      abs_of_nonneg (not_lt.1 hn)]

end Numbers

/-! ### Texts -/

section Texts

/-- The characters a JSON string holds between its quotes for a list of code points. -/
def escapes (ns : List Nat) : List Char :=
  ns.flatMap fun n => (escape n).toList

@[simp] theorem escapes_nil : escapes [] = [] := rfl

@[simp] theorem escapes_cons (n : Nat) (ns : List Nat) :
    escapes (n :: ns) = (escape n).toList ++ escapes ns := rfl

theorem toList_quote (t : String) :
    (quote t).toList = '"' :: escapes (Text.codePoints t) ++ ['"'] := by
  simp only [quote, String.toList_append, String.toList_join, List.flatMap_map, escapes]
  rfl

theorem toNat_lt_char (c : Char) : c.toNat < 0x110000 := by
  have h := c.valid
  simp only [UInt32.isValidChar, Nat.isValidChar] at h
  have : c.toNat = c.val.toNat := rfl
  omega

theorem toNat_ofNat_of_valid {n : Nat} (hn : n < 0x110000) (hs : Text.isSurrogate n = false) :
    (Char.ofNat n).toNat = n := by
  rw [Char.toNat_ofNat, if_pos]
  simp only [Text.isSurrogate, Bool.and_eq_false_iff, decide_eq_false_iff_not, not_le] at hs
  unfold Nat.isValidChar
  omega

/-- Every code point of a text is below `U+110000`. -/
theorem codePoints_lt (t : String) : ∀ n ∈ Text.codePoints t, n < 0x110000 := by
  unfold Text.codePoints
  induction t.toList using Text.charsPoints.induct with
  | case1 => simp [Text.charsPoints]
  | case2 c hc d more ih =>
    rw [Text.charsPoints.eq_def]
    simp only [if_pos hc, List.mem_cons]
    rintro n (rfl | hn)
    · exact toNat_lt_char d
    · exact ih n hn
  | case3 c hc =>
    rw [Text.charsPoints.eq_def]
    simp only [if_pos hc, List.mem_singleton]
    rintro n rfl
    exact toNat_lt_char c
  | case4 c rest hc hs ih =>
    rw [Text.charsPoints.eq_def]
    simp only [if_neg hc, if_pos hs, List.mem_cons]
    rintro n (rfl | hn)
    · have := toNat_lt_char c
      simp only [Text.surrogateBase] at hs ⊢
      omega
    · exact ih n hn
  | case5 c rest hc hs ih =>
    rw [Text.charsPoints.eq_def]
    simp only [if_neg hc, if_neg hs, List.mem_cons]
    rintro n (rfl | hn)
    · exact toNat_lt_char c
    · exact ih n hn

theorem unjoined_tail {n : Nat} {ns : List Nat} (h : unjoined (n :: ns) = true) :
    unjoined ns = true := by
  cases ns with
  | nil => rfl
  | cons m ns => exact (Bool.and_eq_true _ _ ▸ h).2

/-- What `escape` writes for a code point: a backslash and a letter other than `u`, a backslash,
`u` and four hexadecimal digits, or one character other than a backslash. -/
theorem escape_cases (m : Nat) (hm : m < 0x110000) :
    (∃ e, (escape m).toList = ['\\', e] ∧ e ≠ 'u') ∨
    ((escape m).toList = '\\' :: 'u' :: (Text.hexPadded 4 m).toList ∧ m < 0x10000) ∨
    (∃ c, (escape m).toList = [c] ∧ c ≠ '\\') := by
  unfold escape
  split_ifs with h34 h92 h10 h13 h9 hu
  · exact .inl ⟨'"', rfl, by decide⟩
  · exact .inl ⟨'\\', rfl, by decide⟩
  · exact .inl ⟨'n', rfl, by decide⟩
  · exact .inl ⟨'r', rfl, by decide⟩
  · exact .inl ⟨'t', rfl, by decide⟩
  · refine .inr (.inl ⟨by simp [String.toList_append], ?_⟩)
    simp only [Bool.or_eq_true, decide_eq_true_eq, Text.isSurrogate, Bool.and_eq_true] at hu
    omega
  · refine .inr (.inr ⟨Char.ofNat m, String.toList_singleton _, fun hc => h92 ?_⟩)
    have hs : Text.isSurrogate m = false := (by simpa using hu : 32 ≤ m ∧ _).2
    have := congrArg Char.toNat hc
    rw [toNat_ofNat_of_valid hm hs] at this
    simp [this]

theorem length_escape_pos (n : Nat) (hn : n < 0x110000) : 0 < (escape n).length := by
  rw [← String.length_toList]
  rcases escape_cases n hn with ⟨e, he, -⟩ | ⟨he, -⟩ | ⟨c, he, -⟩ <;> simp [he]

section Reading

variable {s : Array Char} {i start fuel : Nat} {acc rest : List Char}

/-- A backslash and one of the letters of a short escape are read as the character the letter
stands for. -/
theorem readText_short {e ch : Char} {more : List Char} (h : s.toList.drop i = '\\' :: e :: more)
    (he : e = '"' ∧ ch = '"' ∨ e = '\\' ∧ ch = '\\' ∨ e = 'n' ∧ ch = '\n' ∨ e = 'r' ∧ ch = '\r' ∨
      e = 't' ∧ ch = '\t') :
    readText s start (fuel + 1) i acc = readText s start fuel (i + 2) (ch :: acc) := by
  have h₁ := drop_succ_of_drop h
  have hi : ¬ i ≥ s.size := not_le.2 (lt_size_of_drop h)
  have hi₁ : ¬ i + 1 ≥ s.size := not_le.2 (lt_size_of_drop h₁)
  rw [readText, if_neg hi, charAt_of_drop h]
  simp only [show ('\\' == '"') = false from rfl, Bool.false_eq_true, if_false,
    show (('\\' : Char).toNat < 0x20) = False from by decide, if_false, bne_self_eq_false,
    if_neg hi₁, charAt_of_drop h₁]
  rcases he with ⟨rfl, rfl⟩ | ⟨rfl, rfl⟩ | ⟨rfl, rfl⟩ | ⟨rfl, rfl⟩ | ⟨rfl, rfl⟩ <;> rfl

/-- A code point escaped by its number is read as that code point: a high surrogate is joined
only to a low one whose escape follows. -/
theorem readText_u {n : Nat} {ns : List Nat} (hn : n < 0x10000) (hns : ∀ m ∈ ns, m < 0x110000)
    (hj : unjoined (n :: ns) = true)
    (h : s.toList.drop i =
      '\\' :: 'u' :: ((Text.hexPadded 4 n).toList ++ (escapes ns ++ '"' :: rest))) :
    readText s start (fuel + 1) i acc =
      readText s start fuel (i + 6) ((Text.pointChars n).reverse ++ acc) := by
  have h₁ := drop_succ_of_drop h
  have h₂ : s.toList.drop (i + 2) = _ := drop_succ_of_drop h₁
  have h₆ : s.toList.drop (i + 6) = escapes ns ++ '"' :: rest := by
    have := drop_add_of_drop h₂
    rwa [length_hexPadded_four hn] at this
  have hi : ¬ i ≥ s.size := not_le.2 (lt_size_of_drop h)
  have hi₁ : ¬ i + 1 ≥ s.size := not_le.2 (lt_size_of_drop h₁)
  have hsize : ¬ s.size ≤ i + 6 := by
    obtain ⟨c, r, hc⟩ := List.exists_cons_of_ne_nil (by simp : escapes ns ++ '"' :: rest ≠ [])
    exact not_le.2 (lt_size_of_drop (h₆.trans hc))
  rw [readText, if_neg hi, charAt_of_drop h]
  simp only [show ('\\' == '"') = false from rfl, Bool.false_eq_true, if_false,
    show (('\\' : Char).toNat < 0x20) = False from by decide, bne_self_eq_false,
    if_neg hi₁, charAt_of_drop h₁]
  rw [if_neg hsize, hex4_of_drop hn h₂]
  dsimp only
  split_ifs with hpair
  · obtain ⟨hhigh, hhigh', -, hb, hu⟩ := hpair
    -- the pairing looks for the escape of the next code point by its number
    cases ns with
    | nil =>
      rw [escapes_nil, List.nil_append] at h₆
      rw [charAt_of_drop h₆] at hb
      exact absurd hb (by decide)
    | cons m ns' =>
      rw [escapes_cons, List.append_assoc] at h₆
      rcases escape_cases m (hns m List.mem_cons_self) with ⟨e, he, heu⟩ | ⟨he, hm⟩ | ⟨c, he, hc⟩
      · rw [he, List.cons_append, List.cons_append] at h₆
        have h₇ : s.toList.drop (i + 7) = _ := drop_succ_of_drop h₆
        rw [charAt_of_drop h₇, beq_iff_eq] at hu
        exact absurd hu heu
      · rw [he, List.cons_append, List.cons_append] at h₆
        have h₈ : s.toList.drop (i + 8) = _ := drop_succ_of_drop (drop_succ_of_drop h₆)
        rw [hex4_of_drop hm h₈]
        dsimp only
        -- the next code point is not a low surrogate
        simp only [unjoined, Bool.and_eq_true, Bool.not_eq_true', Bool.and_eq_false_iff,
          decide_eq_false_iff_not] at hj
        rw [if_neg (by omega)]
      · rw [he, List.cons_append, List.nil_append] at h₆
        rw [charAt_of_drop h₆, beq_iff_eq] at hb
        exact absurd hb hc
  · rfl

/-- A character that is not a quote, a backslash or a control character is read as the code
point it is. -/
theorem readText_plain {c : Char} {more : List Char} (h : s.toList.drop i = c :: more)
    (hq : c ≠ '"') (hb : c ≠ '\\') (hc : 0x20 ≤ c.toNat) :
    readText s start (fuel + 1) i acc =
      readText s start fuel (i + 1) ((Text.pointChars c.toNat).reverse ++ acc) := by
  rw [readText, if_neg (not_le.2 (lt_size_of_drop h)), charAt_of_drop h]
  simp only [beq_iff_eq, hq, if_false, show ¬ c.toNat < 0x20 by omega, bne_iff_ne, ne_eq, hb,
    not_false_eq_true, if_true]

/-- One code point of a text, read from what `escape` wrote for it. -/
theorem readText_escape {n : Nat} {ns : List Nat} (hn : n < 0x110000)
    (hns : ∀ m ∈ ns, m < 0x110000) (hj : unjoined (n :: ns) = true)
    (h : s.toList.drop i = (escape n).toList ++ (escapes ns ++ '"' :: rest)) :
    readText s start (fuel + 1) i acc =
      readText s start fuel (i + (escape n).length) ((Text.pointChars n).reverse ++ acc) := by
  unfold escape at h ⊢
  split_ifs at h ⊢ with h34 h92 h10 h13 h9 hu
  · obtain rfl : n = 34 := by simpa using h34
    rw [show "\\\"".toList = ['\\', '"'] by decide] at h
    rw [show "\\\"".length = 2 by decide, show Text.pointChars 34 = ['"'] by decide]
    exact readText_short h (.inl ⟨rfl, rfl⟩)
  · obtain rfl : n = 92 := by simpa using h92
    rw [show "\\\\".toList = ['\\', '\\'] by decide] at h
    rw [show "\\\\".length = 2 by decide, show Text.pointChars 92 = ['\\'] by decide]
    exact readText_short h (.inr (.inl ⟨rfl, rfl⟩))
  · obtain rfl : n = 10 := by simpa using h10
    rw [show "\\n".toList = ['\\', 'n'] by decide] at h
    rw [show "\\n".length = 2 by decide, show Text.pointChars 10 = ['\n'] by decide]
    exact readText_short h (.inr (.inr (.inl ⟨rfl, rfl⟩)))
  · obtain rfl : n = 13 := by simpa using h13
    rw [show "\\r".toList = ['\\', 'r'] by decide] at h
    rw [show "\\r".length = 2 by decide, show Text.pointChars 13 = ['\r'] by decide]
    exact readText_short h (.inr (.inr (.inr (.inl ⟨rfl, rfl⟩))))
  · obtain rfl : n = 9 := by simpa using h9
    rw [show "\\t".toList = ['\\', 't'] by decide] at h
    rw [show "\\t".length = 2 by decide, show Text.pointChars 9 = ['\t'] by decide]
    exact readText_short h (.inr (.inr (.inr (.inr ⟨rfl, rfl⟩))))
  · have hsmall : n < 0x10000 := by
      simp only [Bool.or_eq_true, decide_eq_true_eq, Text.isSurrogate, Bool.and_eq_true] at hu
      omega
    have hlen : ("\\u" ++ Text.hexPadded 4 n).length = 6 := by
      rw [← String.length_toList, String.toList_append, List.length_append,
        length_hexPadded_four hsmall]
      decide
    rw [String.toList_append, show "\\u".toList = ['\\', 'u'] by decide, List.append_assoc] at h
    rw [hlen]
    exact readText_u hsmall hns hj h
  · have hs : Text.isSurrogate n = false := (by simpa using hu : 32 ≤ n ∧ _).2
    have hc := toNat_ofNat_of_valid hn hs
    rw [show (Char.ofNat n).toString.toList = [Char.ofNat n] from String.toList_singleton _] at h
    rw [show (Char.ofNat n).toString.length = 1 from String.length_singleton]
    conv_rhs => rw [← hc]
    refine readText_plain h (fun hq => h34 ?_) (fun hb => h92 ?_) ?_
    · rw [← hc, hq]
      rfl
    · rw [← hc, hb]
      rfl
    · rw [hc]
      exact (by simpa using hu : 32 ≤ n ∧ _).1

/-- The characters between the quotes of a written text are read as its code points, up to the
closing quote. -/
theorem readText_escapes : ∀ (ns : List Nat) (i fuel : Nat) (acc : List Char),
    (∀ n ∈ ns, n < 0x110000) → unjoined ns = true →
    s.toList.drop i = escapes ns ++ '"' :: rest → (escapes ns).length < fuel →
    readText s start fuel i acc =
      .ok (String.ofList (acc.reverse ++ ns.flatMap Text.pointChars), i + (escapes ns).length + 1)
  | [], i, fuel, acc, _, _, h, hf => by
    obtain ⟨f, rfl⟩ : ∃ f, fuel = f + 1 := ⟨fuel - 1, by simp at hf; omega⟩
    rw [escapes_nil, List.nil_append] at h
    rw [readText, if_neg (not_le.2 (lt_size_of_drop h)), charAt_of_drop h]
    simp
  | n :: ns, i, fuel, acc, hlt, hj, h, hf => by
    have hn := hlt n List.mem_cons_self
    have hpos := length_escape_pos n hn
    rw [escapes_cons, List.length_append, String.length_toList] at hf
    obtain ⟨f, rfl⟩ : ∃ f, fuel = f + 1 := ⟨fuel - 1, by omega⟩
    rw [escapes_cons, List.append_assoc] at h
    have h' := drop_add_length_of_drop h
    rw [readText_escape hn (fun m hm => hlt m (List.mem_cons_of_mem n hm)) hj h,
      readText_escapes ns _ f _ (fun m hm => hlt m (List.mem_cons_of_mem n hm))
        (unjoined_tail hj) h' (by omega)]
    simp only [List.reverse_append, List.reverse_reverse, List.flatMap_cons, List.append_assoc,
      escapes_cons, List.length_append, String.length_toList]
    congr 2
    omega

/-- A written text that reading can give is read back, and the reader stops after its closing
quote. -/
theorem readText_quote {t : String} (ht : plainText t = true)
    (h : s.toList.drop i = (quote t).toList ++ rest) :
    readText s i (s.size + 1) (i + 1) [] = .ok (t, i + (quote t).length) := by
  simp only [plainText, Bool.and_eq_true, beq_iff_eq] at ht
  simp only [toList_quote, List.cons_append, List.append_assoc] at h
  have h₁ := drop_succ_of_drop h
  have hsize : i + 1 + (escapes (Text.codePoints t)).length < s.size := by
    have := lt_size_of_drop (drop_add_of_drop h₁)
    omega
  rw [readText_escapes _ (i + 1) _ [] (codePoints_lt t) ht.2 h₁ (by omega), List.reverse_nil,
    List.nil_append]
  have hlen : (quote t).length = (escapes (Text.codePoints t)).length + 2 := by
    rw [← String.length_toList, toList_quote]
    simp
  rw [show String.ofList ((Text.codePoints t).flatMap Text.pointChars) = t from ht.1, hlen]
  congr 2
  omega

end Reading

end Texts

/-! ### Values -/

section Values

variable {s : Array Char} {i fuel : Nat} {rest : List Char}

theorem toList_write_list (xs : List Value) :
    (write (.list xs)).toList = '[' :: ((writeItems xs).toList ++ [']']) := by
  simp [write]

theorem toList_write_obj (fs : List (String × Value)) :
    (write (.obj fs)).toList = '{' :: ((writeMembers fs).toList ++ ['}']) := by
  simp [write]

theorem writeItems_cons_cons (x y : Value) (ys : List Value) :
    writeItems (x :: y :: ys) = write x ++ ", " ++ writeItems (y :: ys) := by
  rw [writeItems]
  simp

theorem writeMembers_cons_cons (k : String) (v : Value) (f : String × Value)
    (fs : List (String × Value)) :
    writeMembers ((k, v) :: f :: fs) = quote k ++ ": " ++ write v ++ ", " ++ writeMembers (f :: fs) := by
  rw [writeMembers]
  simp

theorem readValue_null (h : s.toList.drop i = "null".toList ++ rest) :
    readValue s (fuel + 1) i = .ok (.null, i + 4) := by
  have h' : s.toList.drop i = 'n' :: ("ull".toList ++ rest) := by rw [h]; rfl
  rw [readValue, charAt_of_drop h']
  split
  next heq => exact absurd heq (by decide)
  next heq => exact absurd heq (by decide)
  next heq => exact absurd heq (by decide)
  next => simp [spells_of_drop h]

theorem readValue_true (h : s.toList.drop i = "true".toList ++ rest) :
    readValue s (fuel + 1) i = .ok (.bool true, i + 4) := by
  have h' : s.toList.drop i = 't' :: ("rue".toList ++ rest) := by rw [h]; rfl
  rw [readValue, charAt_of_drop h']
  split
  next heq => exact absurd heq (by decide)
  next heq => exact absurd heq (by decide)
  next heq => exact absurd heq (by decide)
  next =>
    rw [spells_eq_false (by rw [h']; simp [List.cons_prefix_cons]), spells_of_drop h]
    rfl

theorem readValue_false (h : s.toList.drop i = "false".toList ++ rest) :
    readValue s (fuel + 1) i = .ok (.bool false, i + 5) := by
  have h' : s.toList.drop i = 'f' :: ("alse".toList ++ rest) := by rw [h]; rfl
  rw [readValue, charAt_of_drop h']
  split
  next heq => exact absurd heq (by decide)
  next heq => exact absurd heq (by decide)
  next heq => exact absurd heq (by decide)
  next =>
    rw [spells_eq_false (by rw [h']; simp [List.cons_prefix_cons]),
      spells_eq_false (by rw [h']; simp [List.cons_prefix_cons]), spells_of_drop h]
    rfl

/-- An integer of at most 4300 digits, followed by what may follow a value, is read back. -/
theorem readValue_int {n : Int} (hdigits : (Nat.toDigits 10 n.natAbs).length ≤ 4300)
    (h : s.toList.drop i = (toString n).toList ++ rest) (hr : Stops rest) :
    readValue s (fuel + 1) i = .ok (.int n, i + (toString n).length) := by
  obtain ⟨d, ds, hd⟩ := List.exists_cons_of_ne_nil (Nat.toDigits_ne_nil (n := n.natAbs) (b := 10))
  have hdig := digit_props (isDigit_of_mem_toDigits_ten (hd ▸ List.mem_cons_self))
  have hdig' : ∀ e : Char, e.isDigit = false → d ≠ e := by
    rintro e he rfl
    rw [isDigit_of_mem_toDigits_ten (hd ▸ List.mem_cons_self)] at he
    cases he
  have hlen : (toString n).length = (if n < 0 then 1 else 0) + (Nat.toDigits 10 n.natAbs).length := by
    rw [← String.length_toList, toList_toString_int, List.length_append]
    split <;> rfl
  -- no literal is spelled, the number is read, and it has at most 4300 digits
  have hsign := h
  rw [toList_toString_int, hd] at hsign
  obtain ⟨c, hc, hspells⟩ : ∃ c, charAt s i = c ∧ c ≠ '"' ∧ c ≠ '{' ∧ c ≠ '[' ∧
      spells s i "null" = false ∧ spells s i "true" = false ∧ spells s i "false" = false ∧
      spells s i "NaN" = false ∧ spells s i "Infinity" = false ∧ spells s i "-Infinity" = false := by
    by_cases hneg : n < 0
    · rw [if_pos hneg, List.singleton_append, List.cons_append] at hsign
      have hI : d ≠ 'I' := hdig' 'I' (by decide)
      refine ⟨'-', charAt_of_drop hsign, by decide, by decide, by decide, ?_, ?_, ?_, ?_, ?_, ?_⟩ <;>
        exact spells_eq_false (by rw [hsign]; simp [List.cons_prefix_cons, hI.symm])
    · rw [if_neg hneg, List.nil_append, List.cons_append] at hsign
      have hne : ∀ e : Char, e.isDigit = false → e ≠ d := fun e he => (hdig' e he).symm
      refine ⟨d, charAt_of_drop hsign, hdig.2.2.2.2.2.2.2.2.1, hdig.2.2.2.2.2.2.2.2.2.1,
        hdig.2.2.2.2.2.2.2.2.2.2, ?_, ?_, ?_, ?_, ?_, ?_⟩ <;>
        exact spells_eq_false (by
          rw [hsign]
          simp [List.cons_prefix_cons, hne 'n' (by decide), hne 't' (by decide),
            hne 'f' (by decide), hne 'N' (by decide), hne 'I' (by decide), hne '-' (by decide)])
  rw [readValue, hc]
  split
  next => exact absurd rfl hspells.1
  next => exact absurd rfl hspells.2.1
  next => exact absurd rfl hspells.2.2.1
  next =>
    obtain ⟨-, -, -, h₁, h₂, h₃, h₄, h₅, h₆⟩ := hspells
    simp only [h₁, h₂, h₃, h₄, h₅, h₆, Bool.false_eq_true, if_false, readNumber_of_drop h hr]
    rw [if_neg (by rw [hlen]; split <;> omega)]

theorem readValue_str {t : String} (ht : plainText t = true)
    (h : s.toList.drop i = (quote t).toList ++ rest) :
    readValue s (fuel + 1) i = .ok (.str t, i + (quote t).length) := by
  have h' : s.toList.drop i = '"' :: (escapes (Text.codePoints t) ++ ['"'] ++ rest) := by
    rw [h, toList_quote]
    rfl
  rw [readValue, charAt_of_drop h']
  split
  next =>
    rw [if_neg (not_le.2 (lt_size_of_drop h')), readText_quote ht h]
    rfl
  next heq => exact absurd heq (by decide)
  next heq => exact absurd heq (by decide)
  next h₁ _ _ => exact absurd rfl h₁

/-- What is written for a plain value starts with a character that is not blank and does not
close a list. -/
theorem write_head {v : Value} (hv : plain v = true) :
    ∃ c w, (write v).toList = c :: w ∧ isBlank c = false ∧ c ≠ ']' := by
  cases v with
  | null => exact ⟨'n', ['u', 'l', 'l'], by simp [write], rfl, by decide⟩
  | bool b =>
    cases b
    · exact ⟨'f', ['a', 'l', 's', 'e'], by simp [write], rfl, by decide⟩
    · exact ⟨'t', ['r', 'u', 'e'], by simp [write], rfl, by decide⟩
  | int n =>
    obtain ⟨d, ds, hd⟩ :=
      List.exists_cons_of_ne_nil (Nat.toDigits_ne_nil (n := n.natAbs) (b := 10))
    have hdig := digit_props (isDigit_of_mem_toDigits_ten (hd ▸ List.mem_cons_self))
    rw [write, toList_toString_int, hd]
    split
    · exact ⟨'-', _, rfl, rfl, by decide⟩
    · exact ⟨d, _, rfl, hdig.1, hdig.2.1⟩
  | float x => simp [plain] at hv
  | str t => exact ⟨'"', _, by rw [write, toList_quote]; rfl, rfl, by decide⟩
  | list xs => exact ⟨'[', _, toList_write_list xs, rfl, by decide⟩
  | obj fs => exact ⟨'{', _, toList_write_obj fs, rfl, by decide⟩

/-- What is written for the items of a nonempty list of plain values starts as its first item
does. -/
theorem writeItems_head {xs : List Value} (hne : xs ≠ []) (hxs : plainItems xs = true) :
    ∃ c w, (writeItems xs).toList = c :: w ∧ isBlank c = false ∧ c ≠ ']' := by
  obtain ⟨x, xs', rfl⟩ := List.exists_cons_of_ne_nil hne
  have hx : plain x = true := (Bool.and_eq_true _ _ ▸ hxs).1
  obtain ⟨c, w, hcw, hc⟩ := write_head hx
  cases xs' with
  | nil => exact ⟨c, w, by rw [show writeItems [x] = write x by rw [writeItems]]; exact hcw, hc⟩
  | cons y ys =>
    refine ⟨c, w ++ (", " ++ writeItems (y :: ys)).toList, ?_, hc⟩
    rw [writeItems_cons_cons, String.append_assoc, String.toList_append, hcw]
    rfl

/-- What is written for the members of a nonempty object starts with the quote of its first
name. -/
theorem writeMembers_head {fs : List (String × Value)} (hne : fs ≠ []) :
    ∃ w, (writeMembers fs).toList = '"' :: w := by
  obtain ⟨⟨k, v⟩, fs', rfl⟩ := List.exists_cons_of_ne_nil hne
  cases fs' with
  | nil =>
    rw [show writeMembers [(k, v)] = quote k ++ ": " ++ write v by rw [writeMembers]]
    simp [toList_quote]
  | cons f fs'' =>
    rw [writeMembers_cons_cons]
    simp [toList_quote]

variable (s) in
/-- With this much fuel, the value reader reads back, at any position, every plain value whose
written text is shorter than the fuel, followed by what may follow a value. -/
def ReadsValues (fuel : Nat) : Prop :=
  ∀ (v : Value) (i : Nat) (rest : List Char), plain v = true →
    s.toList.drop i = (write v).toList ++ rest → Stops rest → (write v).length < fuel →
    readValue s fuel i = .ok (v, i + (write v).length)

variable (s) in
/-- With this much fuel, the item reader reads back the written items of every nonempty list of
plain values, up to the closing bracket. -/
def ReadsItems (fuel : Nat) : Prop :=
  ∀ (xs acc : List Value) (i : Nat) (rest : List Char), xs ≠ [] → plainItems xs = true →
    s.toList.drop i = (writeItems xs).toList ++ ']' :: rest →
    (writeItems xs).length + 1 < fuel →
    readItems s fuel i acc = .ok (.list (acc ++ xs), i + (writeItems xs).length + 1)

variable (s) in
/-- With this much fuel, the member reader reads back the written members of every nonempty
object of plain values whose names are new, up to the closing brace. -/
def ReadsMembers (fuel : Nat) : Prop :=
  ∀ (fs acc : List (String × Value)) (i : Nat) (rest : List Char), fs ≠ [] →
    plainMembers fs = true → ((acc ++ fs).map (·.1)).Nodup →
    s.toList.drop i = (writeMembers fs).toList ++ '}' :: rest →
    (writeMembers fs).length + 1 < fuel →
    readMembers s fuel i acc = .ok (.obj (acc ++ fs), i + (writeMembers fs).length + 1)

theorem readValue_list (hitems : ReadsItems s fuel) {xs : List Value}
    (hxs : plainItems xs = true) (h : s.toList.drop i = (write (.list xs)).toList ++ rest)
    (hf : (write (.list xs)).length < fuel + 1) :
    readValue s (fuel + 1) i = .ok (.list xs, i + (write (.list xs)).length) := by
  have hlen : (write (.list xs)).length = (writeItems xs).length + 2 := by
    rw [← String.length_toList, toList_write_list]
    simp [String.length_toList]
  rw [toList_write_list, List.cons_append, List.append_assoc, List.singleton_append] at h
  have h₁ := drop_succ_of_drop h
  rw [readValue, charAt_of_drop h]
  split
  next heq => exact absurd heq (by decide)
  next heq => exact absurd heq (by decide)
  next =>
    rw [if_neg (not_le.2 (lt_size_of_drop h)), hlen]
    cases xs with
    | nil =>
      rw [show writeItems [] = "" from rfl, String.toList_empty, List.nil_append] at h₁
      rw [skipBlank_of_head h₁ rfl]
      dsimp only
      rw [charAt_of_drop h₁]
      simp [lt_size_of_drop h₁]
      rfl
    | cons x xs' =>
      obtain ⟨c, w, hcw, hblank, hc⟩ := writeItems_head (List.cons_ne_nil x xs') hxs
      have h₁' : s.toList.drop (i + 1) = c :: (w ++ ']' :: rest) := by
        rw [h₁, hcw]
        rfl
      rw [skipBlank_of_head h₁' hblank]
      dsimp only
      rw [charAt_of_drop h₁']
      simp only [beq_iff_eq, hc, false_and, if_false]
      rw [hitems _ [] _ rest (List.cons_ne_nil x xs') hxs h₁ (by omega)]
      simp only [List.nil_append]
      congr 2
      omega
  next _ _ h₃ => exact absurd rfl h₃

theorem readValue_obj (hmembers : ReadsMembers s fuel) {fs : List (String × Value)}
    (hfs : plain (.obj fs) = true) (h : s.toList.drop i = (write (.obj fs)).toList ++ rest)
    (hf : (write (.obj fs)).length < fuel + 1) :
    readValue s (fuel + 1) i = .ok (.obj fs, i + (write (.obj fs)).length) := by
  have hlen : (write (.obj fs)).length = (writeMembers fs).length + 2 := by
    rw [← String.length_toList, toList_write_obj]
    simp [String.length_toList]
  have hfs' : (fs.map (·.1)).Nodup ∧ plainMembers fs = true := by simpa [plain] using hfs
  rw [toList_write_obj, List.cons_append, List.append_assoc, List.singleton_append] at h
  have h₁ := drop_succ_of_drop h
  rw [readValue, charAt_of_drop h]
  split
  next heq => exact absurd heq (by decide)
  next =>
    rw [if_neg (not_le.2 (lt_size_of_drop h)), hlen]
    cases fs with
    | nil =>
      rw [show writeMembers [] = "" from rfl, String.toList_empty, List.nil_append] at h₁
      rw [skipBlank_of_head h₁ rfl]
      dsimp only
      rw [charAt_of_drop h₁]
      simp [lt_size_of_drop h₁]
      rfl
    | cons f fs' =>
      obtain ⟨w, hw⟩ := writeMembers_head (List.cons_ne_nil f fs')
      have h₁' : s.toList.drop (i + 1) = '"' :: (w ++ '}' :: rest) := by
        rw [h₁, hw]
        rfl
      rw [skipBlank_of_head h₁' rfl]
      dsimp only
      rw [charAt_of_drop h₁']
      simp only [show ('"' == '}') = false from rfl, Bool.false_eq_true, false_and, if_false,
        bne_self_eq_false, false_or, ge_iff_le, not_le.2 (lt_size_of_drop h₁')]
      rw [hmembers _ [] _ rest (List.cons_ne_nil f fs') hfs'.2 (by simpa using hfs'.1) h₁
        (by omega)]
      simp only [List.nil_append]
      congr 2
      omega
  next heq => exact absurd heq (by decide)
  next _ h₂ _ => exact absurd rfl h₂

theorem readsValues_succ (hitems : ReadsItems s fuel) (hmembers : ReadsMembers s fuel) :
    ReadsValues s (fuel + 1) := by
  intro v i rest hv h hr hf
  cases v with
  | null => exact readValue_null h
  | bool b =>
    cases b
    · exact readValue_false h
    · exact readValue_true h
  | int n => exact readValue_int (by simpa [plain] using hv) h hr
  | float x => simp [plain] at hv
  | str t => exact readValue_str hv h
  | list xs => exact readValue_list hitems hv h hf
  | obj fs => exact readValue_obj hmembers hv h hf

theorem readsItems_succ (hvalues : ReadsValues s fuel) (hitems : ReadsItems s fuel) :
    ReadsItems s (fuel + 1) := by
  intro xs acc i rest hne hxs h hf
  obtain ⟨x, xs', rfl⟩ := List.exists_cons_of_ne_nil hne
  have hx : plain x = true ∧ plainItems xs' = true := by simpa [plainItems] using hxs
  rw [readItems]
  cases xs' with
  | nil =>
    rw [show writeItems [x] = write x by rw [writeItems]] at h hf ⊢
    rw [hvalues x i _ hx.1 h (by rintro c r ⟨⟩; simp) (by omega)]
    have h₁ := drop_add_length_of_drop h
    dsimp only [bind, Except.bind]
    rw [skipBlank_of_head h₁ rfl, charAt_of_drop h₁]
    simp [lt_size_of_drop h₁]
    rfl
  | cons y ys =>
    rw [writeItems_cons_cons] at h hf ⊢
    obtain ⟨c, w, hcw, hblank, -⟩ := writeItems_head (List.cons_ne_nil y ys) hx.2
    have h' : s.toList.drop i = (write x).toList ++ ',' :: ' ' :: c :: (w ++ ']' :: rest) := by
      rw [h]
      simp [hcw]
    have hlen : (write x ++ ", " ++ writeItems (y :: ys)).length =
        (write x).length + 2 + (writeItems (y :: ys)).length := by
      simp only [String.length_append]
      rfl
    rw [hvalues x i _ hx.1 h' (by rintro c r ⟨⟩; simp) (by omega)]
    have h₁ := drop_add_length_of_drop h'
    have h₂ := drop_succ_of_drop h₁
    have h₃ : s.toList.drop (i + (write x).length + 1 + 1) =
        (writeItems (y :: ys)).toList ++ ']' :: rest := by
      rw [drop_succ_of_drop h₂, hcw]
      rfl
    dsimp only [bind, Except.bind]
    rw [skipBlank_of_head h₁ rfl, charAt_of_drop h₁]
    simp only [show (',' == ']') = false from rfl, Bool.false_eq_true, false_and, if_false,
      bne_self_eq_false, false_or, ge_iff_le, not_le.2 (lt_size_of_drop h₁)]
    rw [skipBlank_space h₂ hblank, hitems _ _ _ rest (List.cons_ne_nil y ys) hx.2 h₃ (by omega),
      hlen]
    simp only [List.append_assoc, List.singleton_append]
    congr 2
    omega


theorem readsMembers_succ (hvalues : ReadsValues s fuel) (hmembers : ReadsMembers s fuel) :
    ReadsMembers s (fuel + 1) := by
  intro fs acc i rest hne hfs hnd h hf
  obtain ⟨⟨k, v⟩, fs', rfl⟩ := List.exists_cons_of_ne_nil hne
  have hkv : plainText k = true ∧ plain v = true ∧ plainMembers fs' = true := by
    simpa [plainMembers, Bool.and_assoc] using hfs
  have hset : Value.setField acc k v = acc ++ [(k, v)] := by
    refine assocSet_of_not_mem (fun e he hek => ?_) v
    rw [List.map_append, List.map_cons, List.nodup_append] at hnd
    exact hnd.2.2 _ (List.mem_map_of_mem he) _ List.mem_cons_self hek
  obtain ⟨tail, h₀, htail⟩ : ∃ tail, s.toList.drop i =
      (quote k).toList ++ ':' :: ' ' :: ((write v).toList ++ tail) ∧
      (fs' = [] ∧ tail = '}' :: rest ∨
        fs' ≠ [] ∧ tail = ',' :: ' ' :: ((writeMembers fs').toList ++ '}' :: rest)) := by
    cases fs' with
    | nil =>
      refine ⟨_, ?_, .inl ⟨rfl, rfl⟩⟩
      rw [h, show writeMembers [(k, v)] = quote k ++ ": " ++ write v by rw [writeMembers]]
      simp
    | cons f fs'' =>
      refine ⟨_, ?_, .inr ⟨List.cons_ne_nil f fs'', rfl⟩⟩
      rw [h, writeMembers_cons_cons]
      simp
  have hl := congrArg List.length (h.symm.trans h₀)
  simp only [List.length_append, List.length_cons, String.length_toList] at hl
  obtain ⟨c, w, hcw, hblank, -⟩ := write_head hkv.2.1
  rw [readMembers, readText_quote hkv.1 h₀]
  have h₁ := drop_add_length_of_drop h₀
  have h₂ := drop_succ_of_drop h₁
  rw [hcw, List.cons_append] at h₂
  dsimp only [bind, Except.bind]
  rw [skipBlank_of_head h₁ rfl, charAt_of_drop h₁,
    if_neg (by simp [lt_size_of_drop h₁]), skipBlank_space h₂ hblank]
  have h₃ : s.toList.drop (i + (quote k).length + 1 + 1) = (write v).toList ++ tail := by
    rw [drop_succ_of_drop h₂, hcw]
    rfl
  have hstops : Stops tail := by
    rintro c r rfl
    rcases htail with ⟨-, htl⟩ | ⟨-, htl⟩ <;> simp only [List.cons.injEq] at htl <;> simp [htl.1]
  have hlt : rest.length < tail.length := by
    rcases htail with ⟨-, rfl⟩ | ⟨-, rfl⟩ <;>
      simp only [List.length_cons, List.length_append] <;> omega
  rw [hvalues v _ tail hkv.2.1 h₃ hstops (by omega)]
  dsimp only
  rw [hset]
  have h₄ := drop_add_length_of_drop h₃
  rcases htail with ⟨rfl, rfl⟩ | ⟨hne', rfl⟩
  · rw [skipBlank_of_head h₄ rfl, charAt_of_drop h₄]
    simp only [List.length_cons] at hl
    simp [lt_size_of_drop h₄]
    rw [show i + (writeMembers [(k, v)]).length = i + (quote k).length + 1 + 1 +
      (write v).length by omega]
    rfl
  · rw [skipBlank_of_head h₄ rfl, charAt_of_drop h₄]
    simp [lt_size_of_drop h₄]
    obtain ⟨w', hw'⟩ := writeMembers_head hne'
    have h₅ := drop_succ_of_drop h₄
    rw [hw', List.cons_append] at h₅
    have h₆ := drop_succ_of_drop h₅
    rw [← List.cons_append, ← hw'] at h₆
    have h₆' : s.toList.drop (i + (quote k).length + 1 + 1 + (write v).length + 1 + 1) =
        '"' :: (w' ++ '}' :: rest) := by
      rw [h₆, hw']
      rfl
    simp only [List.length_cons, List.length_append, String.length_toList] at hl
    rw [if_neg (not_le.2 (lt_size_of_drop h₄)), skipBlank_space h₅ rfl, charAt_of_drop h₆',
      if_neg (by simp [lt_size_of_drop h₆']),
      hmembers fs' (acc ++ [(k, v)]) _ rest hne' hkv.2.2 (by simpa using hnd) h₆ (by omega)]
    simp only [List.append_assoc, List.singleton_append]
    congr 2
    omega

/-- The three readers read back what was written, with any fuel larger than what they read. -/
theorem readers_write (fuel : Nat) :
    ReadsValues s fuel ∧ ReadsItems s fuel ∧ ReadsMembers s fuel := by
  induction fuel with
  | zero =>
    exact ⟨fun _ _ _ _ _ _ hf => absurd hf (Nat.not_lt_zero _),
      fun _ _ _ _ _ _ _ hf => absurd hf (Nat.not_lt_zero _),
      fun _ _ _ _ _ _ _ _ hf => absurd hf (Nat.not_lt_zero _)⟩
  | succ fuel ih =>
    obtain ⟨hvalues, hitems, hmembers⟩ := ih
    exact ⟨readsValues_succ hitems hmembers, readsItems_succ hvalues hitems,
      readsMembers_succ hvalues hmembers⟩

/-- **Reading gives back what was written.** Every value that JSON writes faithfully is read
back from its text as it was. -/
theorem read_write {v : Value} (hv : plain v = true) : read (write v) = .ok v := by
  have h : (write v).toList.toArray.toList.drop 0 = (write v).toList ++ [] := by simp
  obtain ⟨c, w, hcw, hblank, -⟩ := write_head hv
  have hend := drop_add_length_of_drop h
  rw [Nat.zero_add] at hend
  rw [read, skipBlank_of_head (by rw [h, hcw]; rfl) hblank,
    (readers_write _).1 v 0 [] hv h (by rintro _ _ ⟨⟩) (by simp [String.length_toList]; omega)]
  dsimp only [bind, Except.bind]
  have hend' : (write v).toList.toArray.toList.drop (write v).length = [] ++ [] := by
    rw [hend]
    rfl
  rw [Nat.zero_add, skipBlank_of_drop hend' (by simp) (by rintro _ _ ⟨⟩)]
  simp [String.length_toList]
  rfl

end Values

end Json

end TournamentDraw
