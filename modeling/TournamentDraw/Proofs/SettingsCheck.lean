import TournamentDraw.Settings.Check
import TournamentDraw.Proofs.TableKeys
import TournamentDraw.Proofs.Sorting

/-!
# Settings are refused at their first inadmissible field

The check of settings reads seven fields in a fixed order, each under its key, a field left out
taking its default, and stops at the first value its field does not admit, with that field's
refusal. `Field` names the fields and gives each its key, default, admissible values, refusal and
the normal form it writes; `Decides` says that one field's check follows that rule, and each
check is shown to.

Before the fields the check lists the keys that are not fields, sorted and joined as texts; for
a mapping whose keys are texts this never fails (`check_textEntries`), while a key that is no
text makes the listing fail before any field is read. Settings the check answers, written out,
have exactly the seven fields in their normal forms and are answered again unchanged.
-/

namespace TournamentDraw.Settings
open Yaml

/-- Comparing code point lists as texts are compared is their lexicographic order. -/
theorem compare_eq_lt_iff (l m : List Nat) : (compare l m == .lt) = decide (l < m) := by
  induction l generalizing m with
  | nil => cases m <;> rfl
  | cons a l ih =>
    cases m with
    | nil => rfl
    | cons b m =>
      have h : compare (a :: l) (b :: m) = (compare a b).then (compare l m) :=
        List.compareLex_cons_cons
      rw [h, Bool.eq_iff_iff, decide_eq_true_iff, List.cons_lt_cons_iff]
      rcases lt_trichotomy a b with hab | rfl | hab
      · simp [hab, compare_lt_iff_lt.2 hab]
      · have h' := ih m
        rw [Bool.eq_iff_iff, beq_iff_eq, decide_eq_true_iff] at h'
        simpa using h'
      · simp [hab.not_gt, compare_gt_iff_gt.2 hab, hab.ne']

/-- The code points of a text key, which keys are sorted by. -/
def textKey : Datum → List Nat
  | .str s => Text.codePoints s
  | _ => []

/-- A key that is a text. -/
def IsText (k : Datum) : Prop := ∃ s, k = .str s

theorem lessThan_texts {a b : Datum} (ha : IsText a) (hb : IsText b) :
    Datum.lessThan a b = .ok (decide (textKey a < textKey b)) := by
  obtain ⟨s, rfl⟩ := ha
  obtain ⟨t, rfl⟩ := hb
  simp only [Datum.lessThan, textKey, Value.textCmp, compare_eq_lt_iff]
  exact congrArg Except.ok (decide_eq_decide.2 Iff.rfl)

/-- Unknown keys that are all texts are listed without fault. -/
theorem unknownKeysListed_of_texts {t : Hash.Table Datum} (h : Hash.Table.Keeps IsText t) :
    unknownKeysListed t = .ok () := by
  unfold unknownKeysListed
  dsimp only
  generalize hu : (t.without Datum.sameKey _ fieldNames.length).keys = unknown
  have htexts : ∀ k ∈ unknown, IsText k := fun k hk =>
    (h.without _ _ _).mem_keys (hu ▸ hk)
  obtain ⟨ys, hys, -⟩ := @sortWith_sortsStably _ _ Datum.lessThan _ _ textKey unknown
    fun a ha b hb => (lessThan_texts (htexts a ha) (htexts b hb)).trans
      (congrArg Except.ok (decide_eq_decide.2 Iff.rfl))
  have hperm := sortWith_perm hys
  simp only [hys, Except.mapError, bind, Except.bind]
  -- every sorted key is a text, so none is reported
  rw [List.find?_eq_none.2 fun p hp => ?_]
  · rfl
  obtain ⟨s, hs⟩ := htexts p.1 (hperm.mem_iff.1 (List.fst_mem_of_mem_zipIdx hp))
  simp [hs]

/-- A mapping with text keys, as a loaded mapping. -/
def textEntries (es : List (String × Datum)) : List (Datum × Datum) :=
  es.map fun e => (.str e.1, e.2)

/-- Settings with text keys are checked field by field: listing their unknown keys never
fails. -/
theorem check_textEntries (es : List (String × Datum)) :
    check (.dict (textEntries es)) = checkFields (textEntries es) := by
  have hkeys : Hash.Table.Keeps IsText (Hash.Table.ofMapping Datum.sameKey Datum.keyHash
      ((textEntries es).map (·.1))) :=
    (Hash.Table.keeps_ofMapping _ _ _).mono fun k hk => by
      simp only [textEntries, List.map_map, List.mem_map] at hk
      obtain ⟨e, -, rfl⟩ := hk
      exact ⟨e.1, rfl⟩
  simp only [check, listedKeys, unknownKeysListed_of_texts hkeys, Except.mapError, bind,
    Except.bind]

/-- A loaded value is a number of exact value `n`; a truth value counts as `0` or `1`, as in
comparisons. -/
def HasValue (v : Datum) (n : Int) : Prop :=
  ∃ p q, v.fraction? = some (p, q) ∧ p = n * q

theorem hasValue_int (k n : Int) : HasValue (.int k) n ↔ k = n := by
  simp [HasValue, Datum.fraction?]

theorem isNumber_float (x : Double) (n : Int) :
    isNumber (.float x) n = true ↔ HasValue (.float x) n := by
  cases x with
  | finite y =>
    simp only [isNumber, HasValue, Datum.fraction?, beq_iff_eq, Option.some.injEq]
    exact ⟨fun h => ⟨_, _, rfl, h⟩, fun ⟨p, q, hpq, h⟩ => by rw [hpq]; exact h⟩
  | negZero =>
    simp only [isNumber, HasValue, Datum.fraction?, beq_iff_eq, Option.some.injEq, Prod.mk.injEq]
    constructor
    · rintro rfl
      exact ⟨0, 1, ⟨rfl, rfl⟩, by simp⟩
    · rintro ⟨p, q, ⟨rfl, rfl⟩, h⟩
      simpa using h.symm
  | infinity neg => simp [isNumber, HasValue, Datum.fraction?]
  | nan => simp [isNumber, HasValue, Datum.fraction?]

/-- The fields of settings, in the order they are checked. -/
inductive Field where
  | databaseUrl
  | groupSize
  | advancing
  | thirdPlace
  | legs
  | potDraw
  | logLevel
  deriving DecidableEq, Repr

namespace Field

/-- The key of a field. -/
def name : Field → String
  | databaseUrl => "database_url"
  | groupSize => "default_group_size"
  | advancing => "advancing_per_group"
  | thirdPlace => "third_place_match"
  | legs => "league_legs"
  | potDraw => "pot_draw"
  | logLevel => "log_level"

/-- The fields in checking order. -/
def all : List Field := [databaseUrl, groupSize, advancing, thirdPlace, legs, potDraw, logLevel]

/-- The place of a field in checking order. -/
def index : Field → Nat
  | databaseUrl => 0
  | groupSize => 1
  | advancing => 2
  | thirdPlace => 3
  | legs => 4
  | potDraw => 5
  | logLevel => 6

/-- The value a field left out takes. The pot draw options default to an empty mapping, whose
normal form is `strict_pots: false`. -/
def default : Field → Datum
  | databaseUrl => .str "sqlite:///.ftdraw/ftdraw.sqlite"
  | groupSize => .int 4
  | advancing => .int 2
  | thirdPlace => .bool false
  | legs => .int 2
  | potDraw => .dict []
  | logLevel => .str "INFO"

/-- The values a field admits. -/
def Admissible : Field → Datum → Prop
  | databaseUrl, v => ∃ s, v = .str s ∧ s ≠ ""
  | groupSize, v => ∃ n, v = .int n ∧ 2 ≤ n
  | advancing, v => ∃ n, v = .int n ∧ 1 ≤ n
  | thirdPlace, v => ∃ b, v = .bool b
  | legs, v => (HasValue v 1 ∨ HasValue v 2) ∧ ∀ b, v ≠ .bool b
  | potDraw, v => ∃ pd, v = .dict pd ∧
      ∀ w, Datum.member? pd "strict_pots" = some w → ∃ b, w = .bool b
  | logLevel, v => Text.upper v.text ∈ logLevels

/-- How a field refuses a value it does not admit. -/
def refusal : Field → Datum → SettingsError
  | databaseUrl, _ => .databaseUrl
  | groupSize, v => .groupSize v.text
  | advancing, _ => .advancing
  | thirdPlace, _ => .thirdPlace
  | legs, v => .legs v.text
  | potDraw, v => match v with
    | .dict _ => .strictPots
    | _ => .potDraw
  | logLevel, v => .logLevel (Text.upper v.text)

/-- What a check makes of a value the field admits: the pot draw options keep only
`strict_pots`, false when left out, and the log level is upper-cased; the rest stand as
given. -/
def normalForm : Field → Datum → Datum
  | potDraw, .dict pd =>
    .dict [(.str "strict_pots", (Datum.member? pd "strict_pots").getD (.bool false))]
  | logLevel, v => .str (Text.upper v.text)
  | _, v => v

/-- The value field `f` takes in `es`: the one given, or the default. -/
def value (f : Field) (es : List (Datum × Datum)) : Datum :=
  field es f.name f.default

/-- Every default passes its own check. -/
theorem admissible_default (f : Field) : f.Admissible f.default := by
  cases f with
  | databaseUrl => exact ⟨_, rfl, by decide⟩
  | groupSize => exact ⟨4, rfl, by decide⟩
  | advancing => exact ⟨2, rfl, by decide⟩
  | thirdPlace => exact ⟨false, rfl⟩
  | legs => exact ⟨.inr ((hasValue_int 2 2).2 rfl), fun b h => by cases h⟩
  | potDraw => exact ⟨[], rfl, fun w h => by cases h⟩
  | logLevel => show Text.upper "INFO" ∈ logLevels; decide

/-- Every refusal of a field is a complaint about the settings, not a fault of checking. -/
theorem refusal_reported (f : Field) (v : Datum) : (f.refusal v).reported = true := by
  cases f with
  | potDraw => cases v <;> rfl
  | _ => rfl

end Field

variable {α : Type}

/-- The check of field `f` answers `r` on `v` as the field's rule says: it admits `v` and
answers a value written as the normal form of `v`, or it refuses `v` the way `f` refuses. -/
def Decides (f : Field) (write : α → Datum) (r : Except SettingsError α) (v : Datum) : Prop :=
  (f.Admissible v ∧ ∃ x, r = .ok x ∧ write x = f.normalForm v) ∨
    (¬f.Admissible v ∧ r = .error (f.refusal v))

theorem decides_databaseUrl (v : Datum) :
    Decides .databaseUrl .str (databaseUrlOf v) v := by
  by_cases h : Field.databaseUrl.Admissible v
  · obtain ⟨s, rfl, hs⟩ := h
    refine .inl ⟨⟨s, rfl, hs⟩, s, ?_, rfl⟩
    simp [databaseUrlOf, hs]
    rfl
  · refine .inr ⟨h, ?_⟩
    unfold databaseUrlOf
    split
    · rename_i s
      have hs : s = "" := by
        by_contra hs
        exact h ⟨s, rfl, hs⟩
      simp [hs]
      rfl
    · rfl

/-- The two integer fields are one rule with their own bound and refusal. -/
theorem decides_atLeast (f : Field) (bound : Int) (refuse : Datum → SettingsError)
    (hadm : ∀ v, f.Admissible v ↔ ∃ n, v = .int n ∧ bound ≤ n)
    (hrefuse : ∀ v, f.refusal v = refuse v) (hnormal : ∀ v, f.normalForm v = v) (v : Datum) :
    Decides f .int (atLeast bound refuse v) v := by
  by_cases h : f.Admissible v
  · obtain ⟨n, rfl, hn⟩ := (hadm v).1 h
    refine .inl ⟨h, n, ?_, (hnormal _).symm⟩
    simp [atLeast, Int.not_lt.2 hn]
    rfl
  · refine .inr ⟨h, ?_⟩
    rw [hrefuse]
    unfold atLeast
    split
    · rename_i n
      have hn : n < bound := by
        by_contra hn
        exact h ((hadm _).2 ⟨n, rfl, Int.not_lt.1 hn⟩)
      simp [hn]
      rfl
    · rfl

theorem decides_groupSize (v : Datum) :
    Decides .groupSize .int (atLeast 2 (fun v => .groupSize v.text) v) v :=
  decides_atLeast .groupSize 2 _ (fun _ => Iff.rfl) (fun _ => rfl) (fun _ => rfl) v

theorem decides_advancing (v : Datum) :
    Decides .advancing .int (atLeast 1 (fun _ => .advancing) v) v :=
  decides_atLeast .advancing 1 _ (fun _ => Iff.rfl) (fun _ => rfl) (fun _ => rfl) v

/-- A value that is no truth value is refused with the error given. -/
theorem truthValue_of_not_bool {e : SettingsError} {v : Datum} (h : ¬∃ b, v = .bool b) :
    truthValue e v = .error e := by
  unfold truthValue
  split
  · exact absurd ⟨_, rfl⟩ h
  · rfl

theorem decides_thirdPlace (v : Datum) :
    Decides .thirdPlace .bool (truthValue .thirdPlace v) v := by
  by_cases h : Field.thirdPlace.Admissible v
  · obtain ⟨b, rfl⟩ := h
    exact .inl ⟨⟨b, rfl⟩, b, rfl, rfl⟩
  · exact .inr ⟨h, truthValue_of_not_bool h⟩

theorem hasValue_cases {v : Datum} {n : Int} (h : HasValue v n) :
    (∃ b, v = .bool b) ∨ (∃ k, v = .int k) ∨ (∃ x, v = .float x) := by
  obtain ⟨p, q, hf, -⟩ := h
  cases v <;> simp_all [Datum.fraction?]

theorem decides_legs (v : Datum) : Decides .legs datumOfValue (legsOf v) v := by
  unfold legsOf
  split
  · -- an integer is admitted when it is 1 or 2
    rename_i n
    have hadm : Field.legs.Admissible (.int n) ↔ n = 1 ∨ n = 2 := by
      simp [Field.Admissible, hasValue_int]
    by_cases h : n = 1 ∨ n = 2
    · refine .inl ⟨hadm.2 h, .int n, ?_, rfl⟩
      have : (n == 1 || n == 2) = true := by simpa using h
      rw [if_pos this]
      rfl
    · refine .inr ⟨fun h' => h (hadm.1 h'), ?_⟩
      have : ¬(n == 1 || n == 2) = true := by simpa using h
      rw [if_neg this]
      rfl
  · -- a binary64 number is admitted when its value is 1 or 2
    rename_i x
    have hadm : Field.legs.Admissible (.float x) ↔
        HasValue (.float x) 1 ∨ HasValue (.float x) 2 :=
      ⟨fun h => h.1, fun h => ⟨h, fun b hb => by cases hb⟩⟩
    by_cases h : HasValue (.float x) 1 ∨ HasValue (.float x) 2
    · refine .inl ⟨hadm.2 h, .float x, ?_, rfl⟩
      have : (isNumber (.float x) 1 || isNumber (.float x) 2) = true := by
        simpa [isNumber_float] using h
      rw [if_pos this]
      rfl
    · refine .inr ⟨fun h' => h (hadm.1 h'), ?_⟩
      have : ¬(isNumber (.float x) 1 || isNumber (.float x) 2) = true := by
        simpa [isNumber_float] using h
      rw [if_neg this]
      rfl
  · -- nothing else has the value 1 or 2 without being a truth value
    rename_i hint hfloat
    refine .inr ⟨?_, rfl⟩
    rintro ⟨h | h, hnb⟩ <;>
    · rcases hasValue_cases h with ⟨b, rfl⟩ | ⟨k, rfl⟩ | ⟨y, rfl⟩
      · exact hnb b rfl
      · exact hint k rfl
      · exact hfloat y rfl

theorem decides_potDraw (v : Datum) :
    Decides .potDraw (fun b => .dict [(.str "strict_pots", .bool b)]) (strictPotsOf v) v := by
  unfold strictPotsOf
  split
  · -- a mapping: its `strict_pots` must be a truth value when given
    rename_i pd
    cases hm : Datum.member? pd "strict_pots" with
    | none =>
      refine .inl ⟨⟨pd, rfl, fun w hw => by rw [hm] at hw; cases hw⟩, false, rfl, ?_⟩
      simp [Field.normalForm, hm]
    | some w =>
      by_cases hw : ∃ b, w = .bool b
      · obtain ⟨b, rfl⟩ := hw
        refine .inl ⟨⟨pd, rfl, fun w' hw' => ⟨b, Option.some.inj (hw'.symm.trans hm)⟩⟩, b, rfl, ?_⟩
        simp [Field.normalForm, hm]
      · refine .inr ⟨fun ⟨pd', hpd, hall⟩ => ?_, ?_⟩
        · cases hpd
          exact hw (hall w hm)
        · exact truthValue_of_not_bool hw
  · -- anything else is no mapping
    rename_i hnd
    refine .inr ⟨fun ⟨pd, hpd, _⟩ => hnd pd hpd, ?_⟩
    simp only [Field.refusal]
    rfl

theorem decides_logLevel (v : Datum) : Decides .logLevel .str (logLevelOf v) v := by
  unfold logLevelOf
  by_cases h : Text.upper v.text ∈ logLevels
  · refine .inl ⟨h, _, ?_, rfl⟩
    rw [if_pos (List.elem_iff.2 h)]
    rfl
  · refine .inr ⟨h, ?_⟩
    rw [if_neg (fun h' => h (List.elem_iff.1 h'))]
    rfl

theorem Decides.ok {f : Field} {write : α → Datum} {r : Except SettingsError α} {v : Datum}
    (h : Decides f write r v) (hv : f.Admissible v) : ∃ x, r = .ok x ∧ write x = f.normalForm v :=
  h.elim (fun h => h.2) (fun h => absurd hv h.1)

theorem Decides.error {f : Field} {write : α → Datum} {r : Except SettingsError α} {v : Datum}
    (h : Decides f write r v) (hv : ¬f.Admissible v) : r = .error (f.refusal v) :=
  h.elim (fun h => absurd h.1 hv) (fun h => h.2)

/-- The check of the fields, in the words of `Field`: each field is read under its name, a
field left out taking its default. -/
theorem checkFields_eq (es : List (Datum × Datum)) : checkFields es = (do
    let url ← databaseUrlOf (Field.databaseUrl.value es)
    let size ← atLeast 2 (fun v => .groupSize v.text) (Field.groupSize.value es)
    let advancing ← atLeast 1 (fun _ => .advancing) (Field.advancing.value es)
    let third ← truthValue .thirdPlace (Field.thirdPlace.value es)
    let legs ← legsOf (Field.legs.value es)
    let strict ← strictPotsOf (Field.potDraw.value es)
    let level ← logLevelOf (Field.logLevel.value es)
    return { databaseUrl := url, groupSize := size, advancing := advancing, thirdPlace := third,
             legs := legs, strictPots := strict, logLevel := level }) := rfl

/-- The fields checked before `f`. -/
def Field.earlier (f : Field) : List Field := Field.all.take f.index

/-- The settings a check makes of `es` when it refuses nothing, as a mapping: every field in
checking order, with the normal form of the value it takes. -/
def checked (es : List (Datum × Datum)) : List (Datum × Datum) :=
  textEntries (Field.all.map fun f => (f.name, f.normalForm (f.value es)))

/-- Field `f` passes in `es`: it is left out, or given a value it admits. -/
def Fine (es : List (Datum × Datum)) (f : Field) : Prop :=
  ∀ v, given es f.name = some v → f.Admissible v

/-- Field `f` is the first refused in `es`, given the value `v` it does not admit, every field
checked before it passing. -/
def RefusedFirst (es : List (Datum × Datum)) (f : Field) (v : Datum) : Prop :=
  given es f.name = some v ∧ ¬f.Admissible v ∧ ∀ g ∈ f.earlier, Fine es g

theorem fine_iff (es : List (Datum × Datum)) (f : Field) :
    Fine es f ↔ f.Admissible (f.value es) := by
  unfold Fine Field.value field
  cases given es f.name with
  | none => simpa using f.admissible_default
  | some v => simp

/-- A field whose value is not admitted was given: its default is. -/
theorem given_of_not_admissible {es : List (Datum × Datum)} {f : Field}
    (h : ¬f.Admissible (f.value es)) : given es f.name = some (f.value es) := by
  unfold Field.value field at *
  cases hg : given es f.name with
  | none =>
    rw [hg] at h
    exact absurd f.admissible_default h
  | some v => rfl

/-- The check of the fields refuses at the first field whose value it does not admit, with
that field's refusal, unless it admits them all. -/
theorem checkFields_cases (es : List (Datum × Datum)) :
    (∃ f : Field, ¬f.Admissible (f.value es) ∧ (∀ g ∈ f.earlier, g.Admissible (g.value es)) ∧
        checkFields es = .error (f.refusal (f.value es))) ∨
      ∀ f : Field, f.Admissible (f.value es) := by
  rcases decides_databaseUrl (Field.databaseUrl.value es) with ⟨a1, x1, h1, -⟩ | ⟨n1, h1⟩
  swap
  · refine .inl ⟨.databaseUrl, n1, by simp [Field.earlier, Field.index], ?_⟩
    simp only [checkFields_eq, h1, bind, Except.bind]
  rcases decides_groupSize (Field.groupSize.value es) with ⟨a2, x2, h2, -⟩ | ⟨n2, h2⟩
  swap
  · refine .inl ⟨.groupSize, n2, by simpa [Field.earlier, Field.index, Field.all] using a1, ?_⟩
    simp only [checkFields_eq, h1, h2, bind, Except.bind]
  rcases decides_advancing (Field.advancing.value es) with ⟨a3, x3, h3, -⟩ | ⟨n3, h3⟩
  swap
  · refine .inl ⟨.advancing, n3, by simp [Field.earlier, Field.index, Field.all, a1, a2], ?_⟩
    simp only [checkFields_eq, h1, h2, h3, bind, Except.bind]
  rcases decides_thirdPlace (Field.thirdPlace.value es) with ⟨a4, x4, h4, -⟩ | ⟨n4, h4⟩
  swap
  · refine .inl ⟨.thirdPlace, n4, by simp [Field.earlier, Field.index, Field.all, a1, a2, a3], ?_⟩
    simp only [checkFields_eq, h1, h2, h3, h4, bind, Except.bind]
  rcases decides_legs (Field.legs.value es) with ⟨a5, x5, h5, -⟩ | ⟨n5, h5⟩
  swap
  · refine .inl ⟨.legs, n5, by simp [Field.earlier, Field.index, Field.all, a1, a2, a3, a4], ?_⟩
    simp only [checkFields_eq, h1, h2, h3, h4, h5, bind, Except.bind]
  rcases decides_potDraw (Field.potDraw.value es) with ⟨a6, x6, h6, -⟩ | ⟨n6, h6⟩
  swap
  · refine .inl ⟨.potDraw, n6, by
      simp [Field.earlier, Field.index, Field.all, a1, a2, a3, a4, a5], ?_⟩
    simp only [checkFields_eq, h1, h2, h3, h4, h5, h6, bind, Except.bind]
  rcases decides_logLevel (Field.logLevel.value es) with ⟨a7, -⟩ | ⟨n7, h7⟩
  swap
  · refine .inl ⟨.logLevel, n7, by
      simp [Field.earlier, Field.index, Field.all, a1, a2, a3, a4, a5, a6], ?_⟩
    simp only [checkFields_eq, h1, h2, h3, h4, h5, h6, h7, bind, Except.bind]
  exact .inr fun f => by cases f <;> assumption

theorem upper_logLevel {l : String} (h : l ∈ logLevels) : Text.upper l = l := by
  simp only [logLevels, List.mem_cons, List.not_mem_nil, or_false] at h
  rcases h with rfl | rfl | rfl | rfl | rfl <;> decide

/-- A value given under a key is never a mark of a mapping met again: the mark is resolved. -/
theorem given_ne_again {es : List (Datum × Datum)} {k : String} {v : Datum}
    (h : given es k = some v) (m : Bool) : v ≠ .again m := by
  obtain ⟨w, -, rfl⟩ := Option.map_eq_some_iff.1 h
  cases w <;> simp

theorem value_ne_again (f : Field) (es : List (Datum × Datum)) (m : Bool) :
    f.value es ≠ .again m := by
  unfold Field.value field
  cases h : given es f.name with
  | none => cases f <;> simp [Field.default]
  | some v => exact given_ne_again h m

theorem normalForm_ne_again (f : Field) {v : Datum} (hv : ∀ m, v ≠ .again m) (m : Bool) :
    f.normalForm v ≠ .again m := by
  unfold Field.normalForm
  split
  · simp
  · simp
  · exact hv m

theorem given_of_member {es : List (Datum × Datum)} {k : String} {v : Datum}
    (h : Datum.member? es k = some v) (hv : ∀ m, v ≠ .again m) : given es k = some v := by
  unfold given
  rw [h, Option.map_some]
  cases v <;> simp_all

/-- Reading a field back from what the check made of it gives its normal form. -/
theorem value_checked (es : List (Datum × Datum)) (f : Field) :
    f.value (checked es) = f.normalForm (f.value es) := by
  have hv := normalForm_ne_again f (value_ne_again f es)
  unfold Field.value field
  rw [given_of_member ?_ hv]
  · rfl
  · cases f <;> simp [checked, textEntries, Field.all, Field.name, Datum.member?, Datum.sameKey]

theorem logLevelOf_str {l : String} (h : l ∈ logLevels) : logLevelOf (.str l) = .ok l := by
  unfold logLevelOf
  rw [if_pos (by simpa [Datum.text, upper_logLevel h] using h)]
  simp [Datum.text, upper_logLevel h]
  rfl

/-- When every field takes an admissible value, the check answers settings written as
`checked es`, and checking that written form answers the same settings. -/
theorem checkFields_of_admissible {es : List (Datum × Datum)}
    (h : ∀ f : Field, f.Admissible (f.value es)) :
    ∃ s, checkFields es = .ok s ∧ datumOfValue s.toValue = .dict (checked es) ∧
      check (datumOfValue s.toValue) = .ok s := by
  obtain ⟨x1, h1, w1⟩ := (decides_databaseUrl _).ok (h .databaseUrl)
  obtain ⟨x2, h2, w2⟩ := (decides_groupSize _).ok (h .groupSize)
  obtain ⟨x3, h3, w3⟩ := (decides_advancing _).ok (h .advancing)
  obtain ⟨x4, h4, w4⟩ := (decides_thirdPlace _).ok (h .thirdPlace)
  obtain ⟨x5, h5, w5⟩ := (decides_legs _).ok (h .legs)
  obtain ⟨x6, h6, w6⟩ := (decides_potDraw _).ok (h .potDraw)
  obtain ⟨x7, h7, w7⟩ := (decides_logLevel _).ok (h .logLevel)
  have hwritten : datumOfValue (Settings.toValue ⟨x1, x2, x3, x4, x5, x6, x7⟩) =
      .dict (checked es) := by
    simp only [checked, textEntries, Field.all, List.map, Field.name, ← w1, ← w2, ← w3, ← w4,
      ← w5, ← w6, ← w7]
    rfl
  refine ⟨_, ?_, hwritten, ?_⟩
  · simp only [checkFields_eq, h1, h2, h3, h4, h5, h6, h7, bind, Except.bind, pure, Except.pure]
  · -- each field reads back as the normal form of its value, which its check answers again
    have hlevel : x7 ∈ logLevels := by
      have := h .logLevel
      simp only [Field.normalForm, Datum.str.injEq] at w7
      rw [w7]
      exact this
    rw [hwritten, checked, check_textEntries, ← checked, checkFields_eq]
    simp only [value_checked]
    rw [← w6, ← w7]
    dsimp only [Field.normalForm]
    have hstrict : strictPotsOf (.dict [(.str "strict_pots", .bool x6)]) = .ok x6 := by
      simp [strictPotsOf, Datum.member?, Datum.sameKey]
      rfl
    simp only [h1, h2, h3, h4, h5, hstrict, logLevelOf_str hlevel, bind, Except.bind, pure,
      Except.pure]

/-- **Settings with text keys are refused exactly at an inadmissible field.** The check
answers settings iff every field is left out or given a value it admits. A refusal is a
complaint about the settings, that of the first field, in checking order, given a value it
does not admit. Settings the check answers, written out, have exactly the fields, each with
the normal form of its value (unknown keys dropped, fields left out at their default), and
checking them again answers the same settings. -/
theorem settings_check_refuses_first_inadmissible_field (es : List (String × Datum)) :
    ((∃ s, check (.dict (textEntries es)) = .ok s) ↔ ∀ f, Fine (textEntries es) f) ∧
      (∀ e, check (.dict (textEntries es)) = .error e →
        e.reported = true ∧ ∃ f v, RefusedFirst (textEntries es) f v ∧ e = f.refusal v) ∧
      (∀ s, check (.dict (textEntries es)) = .ok s →
        datumOfValue s.toValue = .dict (checked (textEntries es)) ∧
          check (datumOfValue s.toValue) = .ok s) := by
  rw [check_textEntries]
  generalize textEntries es = ds
  rcases checkFields_cases ds with ⟨f, hf, hearlier, herr⟩ | hall
  · -- refused at `f`, the first field not admitted
    rw [herr]
    refine ⟨⟨fun ⟨_, h⟩ => (by cases h), fun h => absurd ((fine_iff ds f).1 (h f)) hf⟩,
      fun e he => ?_, fun _ h => (by cases h)⟩
    cases he
    refine ⟨Field.refusal_reported _ _, f, _, ⟨given_of_not_admissible hf, hf, ?_⟩, rfl⟩
    exact fun g hg => (fine_iff ds g).2 (hearlier g hg)
  · -- every field admitted
    obtain ⟨s, hs, hwritten, hagain⟩ := checkFields_of_admissible hall
    rw [hs]
    refine ⟨⟨fun _ f => (fine_iff ds f).2 (hall f), fun _ => ⟨s, rfl⟩⟩, fun _ h => (by cases h),
      fun s' h => ?_⟩
    cases h
    exact ⟨hwritten, hagain⟩

/-- A mapping whose only key is the number `1` gives no field, yet the check fails listing it
as an unknown key: its unknown keys are joined as texts. -/
theorem number_key_fails_listing :
    (∀ f, Fine [(.int 1, .str "a")] f) ∧
      check (.dict [(.int 1, .str "a")]) = .error (.unchecked (.notText 0 "int")) ∧
      (SettingsError.unchecked (.notText 0 "int")).reported = false := by
  refine ⟨fun f v h => ?_, rfl, rfl⟩
  have hnone : given [(.int 1, .str "a")] f.name = none := by cases f <;> rfl
  rw [hnone] at h
  cases h

end TournamentDraw.Settings
