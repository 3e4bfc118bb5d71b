import TournamentDraw.Bracket.Encode
import TournamentDraw.Store.Basic
import TournamentDraw.Proofs.JsonText

/-!
# Competitions read back from their written form

A competition is written as an object of its fields in a fixed order (`Bracket.toValue`) and
read back from such an object (`Bracket.ofValue`). Reading what was written gives the same
competition, down to the order of its rounds, matches and groups, and to fields that hold
values of any kind. Four facts make it so: every field is written under a key of its own, so
looking the key up finds it; a format, state or lane is written by its name and read back by
name; a lane's name is never empty, so a written lane is read as that lane and not as none;
and the moment a competition was generated is written in ISO form, which is never empty and
reads back as that moment.

The store keeps a competition as the JSON text of its record (`Bracket.written`) and reads a
stored row by reading that text and then the record (`StoredBracket.data`). Reading gives back
what was written for every record that JSON writes faithfully (`Json.read_write`), so a saved
competition is read back from its row as it was saved.

Main statement: `competition_survives_written_form`.
-/

namespace TournamentDraw

/-! ### Dates and times in ISO form -/

namespace DateTime

/-- A number written with at least `width` digits is its numeral after enough zeros. -/
theorem toList_padded {width n : Nat} :
    (padded width n).toList =
      List.replicate (width - (Nat.toDigits 10 n).length) '0' ++ Nat.toDigits 10 n := by
  simp [padded, ← String.length_toList]

theorem length_padded {width n : Nat} (hw : 0 < width) (hn : n < 10 ^ width) :
    (padded width n).toList.length = width := by
  have := (Nat.length_toDigits_le_iff (n := n) (by norm_num) hw).2 hn
  rw [toList_padded, List.length_append, List.length_replicate]
  omega

/-- A number written with `width` digits, when it has no more, is read back by taking `width`
digits. -/
theorem takeDigits_padded {width n : Nat} (hw : 0 < width) (hn : n < 10 ^ width)
    (rest : List Char) : takeDigits width ((padded width n).toList ++ rest) = some (n, rest) := by
  have hlen := length_padded hw hn
  have hdigits : ((padded width n).toList).all Char.isDigit = true := by
    rw [toList_padded, List.all_append, Bool.and_eq_true, List.all_eq_true, List.all_eq_true]
    refine ⟨fun c hc => ?_, fun c hc => ?_⟩
    · rw [List.eq_of_mem_replicate hc]
      rfl
    · exact Nat.isDigit_of_mem_toDigits (by norm_num) le_rfl hc
  rw [takeDigits, List.take_left' hlen, List.drop_left' hlen, if_pos ⟨hlen, hdigits⟩,
    toList_padded, Nat.ofDigitChars_append, Nat.ofDigitChars_replicate_zero, Nat.mul_zero,
    Nat.ofDigitChars_ten_toDigits]

theorem toList_isoText (year month day hour minute second micro : Nat) :
    (isoText year month day hour minute second micro).toList =
      (padded 4 year).toList ++ '-' :: ((padded 2 month).toList ++ '-' ::
        ((padded 2 day).toList ++ 'T' :: ((padded 2 hour).toList ++ ':' ::
          ((padded 2 minute).toList ++ ':' :: ((padded 2 second).toList ++
            (if micro = 0 then "" else "." ++ padded 6 micro).toList))))) := by
  simp [isoText]

/-- **A date and time reads back from its ISO form.** -/
theorem ofIso?_iso (d : DateTime) : ofIso? d.iso = some d := by
  obtain ⟨year, month, day, hour, minute, second, micro, hy, hmo, hd, hh, hmi, hs, hmu⟩ := d
  have hday : day < 10 ^ 2 := by
    have : daysInMonth year month ≤ 31 := by unfold daysInMonth; split_ifs <;> omega
    omega
  have hyear := takeDigits_padded (n := year) (by norm_num) (show year < 10 ^ 4 by omega)
  have hmonth := takeDigits_padded (n := month) (by norm_num) (show month < 10 ^ 2 by omega)
  have hday := takeDigits_padded (n := day) (by norm_num) hday
  have hhour := takeDigits_padded (n := hour) (by norm_num) (show hour < 10 ^ 2 by omega)
  have hminute := takeDigits_padded (n := minute) (by norm_num) (show minute < 10 ^ 2 by omega)
  have hsecond := takeDigits_padded (n := second) (by norm_num) (show second < 10 ^ 2 by omega)
  unfold ofIso?
  have hmicro : microsOf (if micro = 0 then "" else "." ++ padded 6 micro).toList = some micro := by
    split
    · subst micro; rfl
    · have hmu' : micro < 10 ^ 6 := hmu
      have htake := takeDigits_padded (n := micro) (by norm_num) hmu' []
      rw [List.append_nil] at htake
      rw [String.toList_append, show ".".toList = ['.'] from rfl, List.singleton_append,
        microsOf, if_pos (length_padded (by norm_num) hmu'), htake]
      rfl
  simp only [iso, toList_isoText, hyear, hmonth, hday, hhour, hminute, hsecond, takeChar, hmicro,
    Option.bind_eq_bind, Option.bind_some, if_true]
  rw [dif_pos ⟨hy, hmo, hd, hh, hmi, hs, hmu⟩]

/-- The ISO form of a date and time is never empty, so it is a true value. -/
theorem iso_ne_empty (d : DateTime) : d.iso ≠ "" := by
  intro h
  have h' := congrArg String.toList h
  rw [iso, toList_isoText] at h'
  simp at h'

end DateTime

@[simp] theorem Encode.generatedAtOf_iso (d : DateTime) :
    Encode.generatedAtOf (.str d.iso) = .ok d := by
  simp [Encode.generatedAtOf, Value.truthy, d.iso_ne_empty, DateTime.ofIso?_iso]

/-! ### Records -/

@[simp] theorem Format.ofName?_name (f : Format) : Format.ofName? f.name = some f := by
  cases f <;> rfl

@[simp] theorem Status.ofName?_name (st : Status) : Status.ofName? st.name = some st := by
  cases st <;> rfl

@[simp] theorem Lane.ofName?_name (l : Lane) : Lane.ofName? l.name = some l := by
  cases l <;> rfl

/-- A lane is written by a name that is never empty. -/
@[simp] theorem Lane.truthy_name (l : Lane) : (Value.str l.name).truthy = true := by
  cases l <;> rfl

@[simp] theorem Encode.items_list (xs : List Value) : Encode.items (.list xs) = pure xs := rfl

/-- Reading back each item of a list of written items gives the list. -/
theorem mapM_map_of_readBack {α β ε : Type} {read : β → Except ε α} {write : α → β}
    (h : ∀ x, read (write x) = .ok x) (xs : List α) : (xs.map write).mapM read = .ok xs := by
  have hcomp : read ∘ write = fun x => pure (id x) := funext h
  rw [List.mapM_map, hcomp, List.mapM_pure, List.map_id]
  rfl

/-- A written match reads back as itself. -/
theorem Match.ofValue_toValue (m : Match) : Match.ofValue m.toValue = .ok m := by
  obtain ⟨id, round, number, team1, team2, slot1, slot2, score1, score2, winner, loser,
    manualWinner, manualOverride, status, next, loserNext, autoAdvance, groupLetter⟩ := m
  -- once the state is a constructor, reading only looks the written keys up
  cases status <;> rfl

/-- A written round reads back as itself, its lane included. -/
theorem Round.ofValue_toValue (r : Round) : Round.ofValue r.toValue = .ok r := by
  obtain ⟨number, name, games, lane⟩ := r
  have hgames := mapM_map_of_readBack Match.ofValue_toValue games
  cases lane with
  | none =>
    simp only [Round.ofValue, Round.toValue, Encode.items_list, Encode.field, List.lookup,
      String.reduceBEq, Option.getD_some, pure_bind, hgames]
    rfl
  | some l =>
    simp only [Round.ofValue, Round.toValue, Encode.items_list, Encode.field, List.lookup,
      String.reduceBEq, Option.getD_some, pure_bind, hgames, Lane.truthy_name, Lane.ofName?_name]
    rfl

/-- A written competition reads back as itself. -/
theorem Bracket.ofValue_toValue (b : Bracket) : Bracket.ofValue b.toValue = .ok b := by
  obtain ⟨format, groupCount, teamsPerGroup, advancing, rounds, fixtures, groups, thirdPlace,
    seed, generatedAt⟩ := b
  have hrounds := mapM_map_of_readBack Round.ofValue_toValue rounds
  have hfixtures := mapM_map_of_readBack Match.ofValue_toValue fixtures
  -- a group is written as its letter and its list of matches
  have hgroups : (groups.map fun x => (x.1, Value.list (x.2.map Match.toValue))).mapM
      (fun x => (do let ms ← Encode.items x.2; let ms ← ms.mapM Match.ofValue; pure (x.1, ms) :
        Except ReadError _)) = .ok groups :=
    mapM_map_of_readBack (fun g => by
      simp only [Encode.items_list, mapM_map_of_readBack Match.ofValue_toValue, pure_bind]
      rfl) groups
  simp only [Bracket.ofValue, Bracket.toValue, Encode.items_list, Encode.field, List.lookup,
    String.reduceBEq, Option.getD_some, pure_bind, Format.ofName?_name, hrounds, hfixtures, hgroups,
    Encode.generatedAtOf_iso]
  rfl

/-! ### The stored form -/

/-- Saving a competition stores its written text where it is read back. -/
theorem Store.bracket?_saveBracket (s : Store) (tid : String) (age : Option String)
    (data : Bracket) :
    ((s.saveBracket tid age data).bracket? tid age).map (·.text) = some data.written := by
  unfold saveBracket
  cases hb : s.bracket? tid age with
  | some b =>
    have hfind : s.tables.brackets.find? (fun x => x.tournament == tid && x.ageGroup == age) =
        some b := hb
    simp only [bracket?, List.find?_map]
    -- rewriting the row keeps the tournament and age group it is found by
    have hp : ((fun x : StoredBracket => x.tournament == tid && x.ageGroup == age) ∘
        fun x => if x.id = b.id then { x with format := data.format, text := data.written }
          else x) =
        fun x => x.tournament == tid && x.ageGroup == age := by
      funext x
      simp only [Function.comp_apply]
      split <;> rfl
    rw [hp, hfind]
    simp
  | none =>
    have hfind : s.tables.brackets.find? (fun x => x.tournament == tid && x.ageGroup == age) =
        none := hb
    simp [bracket?, Store.tick, List.find?_append, hfind]

/-- A stored row holding the text of a competition that JSON writes faithfully reads back as
that competition. -/
theorem StoredBracket.data_of_written {row : StoredBracket} {b : Bracket}
    (hb : Json.plain b.toValue = true) (h : row.text = b.written) : row.data = .ok b := by
  rw [StoredBracket.data, h, Bracket.written, Json.read_write hb]
  exact b.ofValue_toValue

/-- Competitions survive being written and read back: reading a written competition gives it
back, and writing again what was read from a written form gives that form. The store keeps the
competition it was last given for a tournament and age group as its JSON text, and when JSON
writes that competition faithfully (no binary64 number, integers of at most 4300 digits, texts
that reading can give) the stored row reads back as the competition. -/
theorem competition_survives_written_form (b : Bracket) :
    Bracket.ofValue b.toValue = .ok b ∧
    (Bracket.ofValue b.toValue).map Bracket.toValue = .ok b.toValue ∧
    (Json.plain b.toValue = true → ∀ (s : Store) (tid : String) (age : Option String),
      ((s.saveBracket tid age b).bracket? tid age).map (·.text) = some b.written ∧
      ((s.saveBracket tid age b).bracket? tid age).map (·.data) = some (.ok b)) := by
  have hread := b.ofValue_toValue
  refine ⟨hread, by rw [hread]; rfl, fun hb s tid age => ⟨s.bracket?_saveBracket tid age b, ?_⟩⟩
  obtain ⟨row, hrow, htext⟩ := Option.map_eq_some_iff.1 (s.bracket?_saveBracket tid age b)
  rw [hrow, Option.map_some, StoredBracket.data_of_written hb htext]

/-- A knockout of four teams in a winners' lane: two semifinals, the first won 3–1, both leading
to the final, generated at 2025-03-09 14:05:30.000250. -/
def knockoutSample : Bracket :=
  { format := .singleElimination, advancing := .int 2, seed := .int 42,
    rounds := [
      { number := .int 1, name := .str "Semifinals", lane := some .winners, games := [
        { id := .str "R1M1", round := .int 1, number := .int 1, team1 := .str "a",
          team2 := .str "b", score1 := .int 3, score2 := .int 1, winner := .str "a",
          loser := .str "b", status := .completed, next := .str "R2M1" },
        { id := .str "R1M2", round := .int 1, number := .int 2, team1 := .str "c",
          team2 := .str "d", next := .str "R2M1" }] },
      { number := .int 2, name := .str "Final", lane := some .winners, games := [
        { id := .str "R2M1", round := .int 2, number := .int 1, team1 := .str "a" }] }],
    generatedAt := ⟨2025, 3, 9, 14, 5, 30, 250, by decide, by decide, by decide, by decide,
      by decide, by decide, by decide⟩ }

/-- The sample knockout, saved into an empty store, is stored as its text and read back from
it. -/
theorem saved_knockout_reads_back :
    Json.plain knockoutSample.toValue = true ∧
    (((({} : Store).saveBracket "t1" none knockoutSample).bracket? "t1" none).map (·.text) =
        some knockoutSample.written ∧
      ((({} : Store).saveBracket "t1" none knockoutSample).bracket? "t1" none).map (·.data) =
        some (.ok knockoutSample)) :=
  have hplain : Json.plain knockoutSample.toValue = true := by decide +kernel
  ⟨hplain, (competition_survives_written_form knockoutSample).2.2 hplain {} "t1" none⟩

end TournamentDraw
