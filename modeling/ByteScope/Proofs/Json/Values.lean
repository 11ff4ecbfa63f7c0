import Mathlib.Data.List.Forall2
import ByteScope.Proofs.Json.Numbers
import ByteScope.Proofs.Json.Pairs
import ByteScope.Proofs.Json.RoundTrip

/-!
# Values as JSON text

Whatever can be read as JSON can be written and read again. What is read then has the same keys, and a string for
each string; a number may have become another number.
-/

namespace ByteScope

namespace Json

open Markup (signed)

/-- What JSON text can stand for: keys are strings, each of them once, and an integer is not too long. -/
inductive Readable : Value → Prop
  | null : Readable .null
  | bool (b : Bool) : Readable (.bool b)
  | int {n : Int} : (natText n.natAbs).length ≤ maxDigits → Readable (.int n)
  | float (x : Binary64) : Readable (.float x)
  | text (s : String) : Readable (.text s)
  | list {vs : List Value} : (∀ v ∈ vs, Readable v) → Readable (.list vs)
  | map {l : List (String × Value)} : (l.map Prod.fst).Nodup → (∀ e ∈ l, Readable e.2) → Readable (.map (named id l))

/-- A string, or null. -/
def Kept : Value → Prop
  | .scalar .null => True
  | .scalar (.text _) => True
  | _ => False

/-- One of two values is a string or null only if the other is the same. -/
def Alike (v v' : Value) : Prop := ∀ w, Kept w → (v = w ↔ v' = w)

theorem Alike.refl (v : Value) : Alike v v := fun _ _ => Iff.rfl

theorem Alike.trans {u v w : Value} (h : Alike u v) (h' : Alike v w) : Alike u w :=
  fun x hx => (h x hx).trans (h' x hx)

theorem alike_of_not_kept {v v' : Value} (h : ¬Kept v) (h' : ¬Kept v') : Alike v v' :=
  fun _ hw => iff_of_false (fun he => h (he ▸ hw)) fun he => h' (he ▸ hw)

theorem IsNumber.not_kept {v : Value} (h : IsNumber v) : ¬Kept v := by
  cases h <;> exact id

/-- A value is read back from its text, wherever the text ends. -/
def ReadsBack (v : Value) : Prop :=
  ∀ (depth fuel : Nat) (rest : List Char), Stops rest → (valueText depth v).length ≤ fuel →
    ∃ v', value? fuel (valueText depth v ++ rest) = some (v', rest) ∧ Alike v v'

variable {fuel : Nat} {rest : List Char}

/-! ## Numbers -/

theorem scalarText_int (n : Int) : scalarText (.int n) = signed (decide (n < 0)) (natText n.natAbs) := by
  unfold scalarText intText signed
  simp only [decide_eq_true_eq]

theorem scalarText_finite (negative : Bool) (m : Nat) (e : Int) :
    scalarText (.float (.finite negative m e)) = signed negative (Binary64.magnitudeText m e) := by
  unfold scalarText Binary64.text signed
  exact String.toList_ofList

/-- What starts like neither a string nor a list nor an object is a constant or a number. -/
theorem value?_other {c : Char} (hquote : c ≠ '"') (hlist : c ≠ '[') (hmap : c ≠ '\x7b') (s : List Char) :
    value? (fuel + 1) (c :: s) = (constant? (c :: s) <|> number? (c :: s)) := by
  rw [value?]
  · rintro more heq
    exact hquote (List.head_eq_of_cons_eq heq)
  · rintro more heq
    exact hlist (List.head_eq_of_cons_eq heq)
  · rintro more heq
    exact hmap (List.head_eq_of_cons_eq heq)

theorem value?_signed {s : List Char} (h : IsMagnitude s) (negative : Bool) (hrest : Stops rest) :
    ∃ v, value? (fuel + 1) (signed negative s ++ rest) = some (v, rest) ∧ IsNumber v := by
  obtain ⟨v, hv, hnumber⟩ := number?_append h negative hrest
  obtain ⟨c, cs, rfl, hc⟩ := h.head_digit
  have hconstant : constant? (signed negative (c :: cs) ++ rest) = none := by
    cases negative with
    | true => exact constant?_signed hc true (cs ++ rest)
    | false => exact constant?_signed hc false (cs ++ rest)
  have hother : value? (fuel + 1) (signed negative (c :: cs) ++ rest) =
      (constant? (signed negative (c :: cs) ++ rest) <|> number? (signed negative (c :: cs) ++ rest)) := by
    cases negative with
    | true => exact value?_other (by decide) (by decide) (by decide) (c :: cs ++ rest)
    | false =>
      have hne : ∀ d, isAsciiDigit d = false → c ≠ d := fun d => ne_of_isAsciiDigit hc
      exact value?_other (hne _ rfl) (hne _ rfl) (hne _ rfl) (cs ++ rest)
  refine ⟨v, ?_, hnumber⟩
  rw [hother, hconstant, hv]
  rfl

/-! ## How a text starts and stops -/

/-- A text that starts with neither a blank nor the end of a list. -/
def Opens (s : List Char) : Prop := ∃ c cs, s = c :: cs ∧ isSpace c = false ∧ c ≠ ']'

theorem opens_signed {s : List Char} (h : ∃ c cs, s = c :: cs ∧ isAsciiDigit c = true) (negative : Bool) :
    Opens (signed negative s) := by
  obtain ⟨c, cs, rfl, hc⟩ := h
  cases negative with
  | true => exact ⟨'-', c :: cs, rfl, by decide, by decide⟩
  | false =>
    have hne : ∀ d, isAsciiDigit d = false → c ≠ d := fun d => ne_of_isAsciiDigit hc
    refine ⟨c, cs, rfl, ?_, hne _ rfl⟩
    simp [isSpace, hne ' ' rfl, hne '\t' rfl, hne '\n' rfl, hne '\r' rfl]

theorem opens_scalarText (s : Scalar) : Opens (scalarText s) := by
  have hstring : ∀ text, Opens (stringText text) := fun text => ⟨'"', _, rfl, by decide, by decide⟩
  cases s with
  | null => exact ⟨'n', _, rfl, by decide, by decide⟩
  | bool b =>
    cases b with
    | true => exact ⟨'t', _, rfl, by decide, by decide⟩
    | false => exact ⟨'f', _, rfl, by decide, by decide⟩
  | int n =>
    rw [scalarText_int]
    exact opens_signed (isWhole_natText n.natAbs).head_digit _
  | float x =>
    cases x with
    | finite negative m e =>
      rw [scalarText_finite]
      exact opens_signed (isMagnitude_magnitudeText m e).head_digit _
    | infinite negative =>
      cases negative with
      | true => exact ⟨'-', _, rfl, by decide, by decide⟩
      | false => exact ⟨'I', _, rfl, by decide, by decide⟩
    | nan => exact ⟨'N', _, rfl, by decide, by decide⟩
  | text s => exact hstring s
  | date y m d => exact hstring (dateText y m d)

theorem opens_valueText (depth : Nat) (v : Value) : Opens (valueText depth v) := by
  cases v with
  | scalar s =>
    rw [valueText]
    exact opens_scalarText s
  | list vs =>
    cases vs with
    | nil =>
      rw [valueText]
      exact ⟨'[', _, rfl, by decide, by decide⟩
    | cons v vs =>
      rw [valueText]
      exact ⟨'[', _, rfl, by decide, by decide⟩
  | map es =>
    cases es with
    | nil =>
      rw [valueText]
      exact ⟨'\x7b', _, rfl, by decide, by decide⟩
    | cons e es =>
      rw [valueText]
      exact ⟨'\x7b', _, rfl, by decide, by decide⟩

theorem Opens.skip {s : List Char} (h : Opens s) (depth : Nat) (rest : List Char) :
    skipSpace (newline depth ++ (s ++ rest)) = s ++ rest := by
  obtain ⟨c, cs, rfl, hc, -⟩ := h
  exact skipSpace_newline depth hc (cs ++ rest)

theorem stops_newline (depth : Nat) (rest : List Char) : Stops (newline depth ++ rest) := stops_cons (by decide) _

/-! ## Lists -/

theorem itemsText_append (depth : Nat) (v : Value) (vs : List Value) (rest : List Char) :
    itemsText depth (v :: vs) ++ rest =
      newline depth ++ (valueText depth v ++ ((if vs.isEmpty then [] else [',']) ++ (itemsText depth vs ++ rest))) := by
  rw [itemsText]
  simp only [List.append_assoc]

theorem items?_last {s tail : List Char} {v : Value} (h : value? fuel s = some (v, rest))
    (hrest : skipSpace rest = ']' :: tail) : items? (fuel + 1) s = some ([v], tail) := by
  rw [items?, h]
  simp only [Option.bind_eq_bind, Option.bind_some, hrest]
  rfl

theorem items?_more {s more : List Char} {v : Value} (h : value? fuel s = some (v, rest))
    (hrest : skipSpace rest = ',' :: more) :
    items? (fuel + 1) s = (items? fuel (skipSpace more)).map fun p => (v :: p.1, p.2) := by
  rw [items?, h]
  simp only [Option.bind_eq_bind, Option.bind_some, hrest]
  cases items? fuel (skipSpace more) <;> rfl

/-- The items of a list are read back, up to its end. -/
theorem items?_text (depth outer : Nat) (tail : List Char) (vs : List Value) : ∀ (v : Value) (fuel : Nat),
    (∀ w ∈ v :: vs, ReadsBack w) → (itemsText depth (v :: vs)).length ≤ fuel →
      ∃ vs', items? fuel (skipSpace (itemsText depth (v :: vs) ++ (newline outer ++ ']' :: tail))) = some (vs', tail) := by
  induction vs with
  | nil =>
    intro v fuel hback hfuel
    rw [itemsText_append, (opens_valueText depth v).skip]
    have hlength := congrArg List.length (itemsText_append depth v [] [])
    simp only [List.append_nil, List.length_append, newline, List.length_cons] at hlength
    obtain ⟨fuel, rfl⟩ := Nat.exists_eq_add_of_le' (show 1 ≤ fuel by omega)
    obtain ⟨v', hv, -⟩ := hback v List.mem_cons_self depth fuel (newline outer ++ ']' :: tail) (stops_newline _ _)
      (by omega)
    simp only [List.isEmpty_nil, if_true, List.nil_append, itemsText]
    exact ⟨[v'], items?_last hv (skipSpace_newline outer rfl tail)⟩
  | cons w vs ih =>
    intro v fuel hback hfuel
    rw [itemsText_append, (opens_valueText depth v).skip]
    have hlength := congrArg List.length (itemsText_append depth v (w :: vs) [])
    simp only [List.append_nil, List.length_append, newline, List.length_cons] at hlength
    obtain ⟨fuel, rfl⟩ := Nat.exists_eq_add_of_le' (show 1 ≤ fuel by omega)
    simp only [List.isEmpty_cons, Bool.false_eq_true, if_false, List.cons_append, List.nil_append]
    obtain ⟨v', hv, -⟩ := hback v List.mem_cons_self depth fuel
      (',' :: (itemsText depth (w :: vs) ++ (newline outer ++ ']' :: tail))) (stops_cons (by decide) _) (by omega)
    obtain ⟨vs', hvs⟩ := ih w fuel (fun x hx => hback x (List.mem_cons_of_mem _ hx)) (by omega)
    refine ⟨v' :: vs', ?_⟩
    rw [items?_more hv (skipSpace_of_not rfl _), hvs]
    rfl

theorem value?_list {c : Char} {s : List Char} (h : skipSpace s = c :: rest) (hc : c ≠ ']') :
    value? (fuel + 1) ('[' :: s) = (items? fuel (c :: rest)).map fun p => (.list p.1, p.2) := by
  rw [value?, h]
  split
  · rename_i heq
    exact absurd (List.head_eq_of_cons_eq heq) hc
  · cases items? fuel (c :: rest) <;> rfl

theorem readsBack_list {vs : List Value} (h : ∀ v ∈ vs, ReadsBack v) : ReadsBack (.list vs) := by
  intro depth fuel rest _ hfuel
  cases vs with
  | nil =>
    rw [valueText] at hfuel ⊢
    obtain ⟨fuel, rfl⟩ := Nat.exists_eq_add_of_le' (show 1 ≤ fuel by simp at hfuel; omega)
    exact ⟨.list [], rfl, Alike.refl _⟩
  | cons v vs =>
    rw [valueText] at hfuel ⊢
    simp only [List.cons_append, List.length_cons, List.length_append] at hfuel
    obtain ⟨fuel, rfl⟩ := Nat.exists_eq_add_of_le' (show 1 ≤ fuel by omega)
    obtain ⟨vs', hvs⟩ := items?_text (depth + 1) depth rest vs v fuel h (by omega)
    have hfront := (opens_valueText (depth + 1) v).skip (depth + 1)
      ((if vs.isEmpty then [] else [',']) ++ (itemsText (depth + 1) vs ++ (newline depth ++ ']' :: rest)))
    rw [← itemsText_append] at hfront
    obtain ⟨c, cs, hopen, -, hc⟩ := opens_valueText (depth + 1) v
    rw [hopen, List.cons_append] at hfront
    refine ⟨.list vs', ?_, alike_of_not_kept id id⟩
    rw [hfront] at hvs
    simp only [List.cons_append, List.append_assoc, List.nil_append]
    rw [value?_list hfront hc, hvs]
    rfl

/-! ## Objects -/

/-- The same key, and values that are alike. -/
def SameMember (e e' : String × Value) : Prop := e.1 = e'.1 ∧ Alike e.2 e'.2

theorem membersText_append (depth : Nat) (k : String) (v : Value) (l : List (String × Value)) (rest : List Char) :
    membersText depth (named id ((k, v) :: l)) ++ rest =
      newline depth ++ (stringText k ++ ':' :: ' ' :: (valueText depth v ++
        ((if l.isEmpty then [] else [',']) ++ (membersText depth (named id l) ++ rest)))) := by
  have hempty : (named id l).isEmpty = l.isEmpty := List.isEmpty_map
  have hkey : (Scalar.text k).plain = k := rfl
  rw [named_cons, membersText, hempty, hkey]
  simp only [List.append_assoc, List.cons_append, id]

theorem members?_value (done : Entries) (k : String) (depth : Nat) {v v' : Value}
    (h : value? fuel (valueText depth v ++ rest) = some (v', rest)) :
    members? (fuel + 1) done (stringText k ++ ':' :: ' ' :: (valueText depth v ++ rest)) =
      (match skipSpace rest with
      | ',' :: rest => members? fuel (done.insert (.text k) v') (skipSpace rest)
      | '\x7d' :: rest => some (done.insert (.text k) v', rest)
      | _ => none) := by
  have hblank : skipSpace (' ' :: (valueText depth v ++ rest)) = valueText depth v ++ rest := by
    obtain ⟨c, cs, hopen, hc, -⟩ := opens_valueText depth v
    rw [hopen]
    exact skipSpace_of_not hc _
  rw [stringText_append, members?, stringBody_text]
  simp only [Option.bind_eq_bind, Option.bind_some]
  rw [skipSpace_of_not rfl]
  simp only
  rw [hblank, h]
  simp only [Option.bind_some, String.ofList_toList]
  rfl

theorem members?_last {done : Entries} {k : String} {depth : Nat} {v v' : Value} {tail : List Char}
    (h : value? fuel (valueText depth v ++ rest) = some (v', rest)) (hrest : skipSpace rest = '\x7d' :: tail) :
    members? (fuel + 1) done (stringText k ++ ':' :: ' ' :: (valueText depth v ++ rest)) =
      some (done.insert (.text k) v', tail) := by
  rw [members?_value done k depth h, hrest]
  rfl

theorem members?_more {done : Entries} {k : String} {depth : Nat} {v v' : Value} {more : List Char}
    (h : value? fuel (valueText depth v ++ rest) = some (v', rest)) (hrest : skipSpace rest = ',' :: more) :
    members? (fuel + 1) done (stringText k ++ ':' :: ' ' :: (valueText depth v ++ rest)) =
      members? fuel (done.insert (.text k) v') (skipSpace more) := by
  rw [members?_value done k depth h, hrest]
  rfl

/-- The members of an object are read back, up to its end. -/
theorem members?_text (depth outer : Nat) (tail : List Char) (l : List (String × Value)) :
    ∀ (done : List (String × Value)) (k : String) (v : Value) (fuel : Nat),
      ((done ++ (k, v) :: l).map Prod.fst).Nodup → (∀ e ∈ (k, v) :: l, ReadsBack e.2) →
      (membersText depth (named id ((k, v) :: l))).length ≤ fuel →
      ∃ l', members? fuel (named id done)
          (skipSpace (membersText depth (named id ((k, v) :: l)) ++ (newline outer ++ '\x7d' :: tail))) =
            some (named id (done ++ l'), tail) ∧ List.Forall₂ SameMember ((k, v) :: l) l' := by
  -- By the members that are still to be read; those of `done` are read already.
  induction l with
  | nil =>
    intro done k v fuel hkeys hback hfuel
    have hk : k ∉ done.map Prod.fst := fun hmem => by
      rw [List.map_append, List.nodup_append] at hkeys
      exact hkeys.2.2 k hmem k (by simp) rfl
    have hlength := congrArg List.length (membersText_append depth k v [] [])
    simp only [List.append_nil, List.length_append, newline, List.length_cons] at hlength
    obtain ⟨fuel, rfl⟩ := Nat.exists_eq_add_of_le' (show 1 ≤ fuel by omega)
    obtain ⟨v', hv, halike⟩ := hback _ List.mem_cons_self depth fuel (newline outer ++ '\x7d' :: tail)
      (stops_newline _ _) (by dsimp only; omega)
    have hend : membersText depth (named id ([] : List (String × Value))) = [] := by rw [named, List.map_nil, membersText]
    refine ⟨[(k, v')], ?_, .cons ⟨rfl, halike⟩ .nil⟩
    rw [membersText_append, stringText_append, skipSpace_newline depth rfl, ← stringText_append]
    simp only [List.isEmpty_nil, if_true, List.nil_append, hend]
    rw [members?_last hv (skipSpace_newline outer rfl tail)]
    exact congrArg (fun es => some (es, tail)) (insert_named id v' hk)
  | cons next l ih =>
    obtain ⟨k', w⟩ := next
    intro done k v fuel hkeys hback hfuel
    have hk : k ∉ done.map Prod.fst := fun hmem => by
      rw [List.map_append, List.nodup_append] at hkeys
      exact hkeys.2.2 k hmem k (by simp) rfl
    have hlength := congrArg List.length (membersText_append depth k v ((k', w) :: l) [])
    simp only [List.append_nil, List.length_append, newline, List.length_cons] at hlength
    obtain ⟨fuel, rfl⟩ := Nat.exists_eq_add_of_le' (show 1 ≤ fuel by omega)
    obtain ⟨v', hv, halike⟩ := hback _ List.mem_cons_self depth fuel
      (',' :: (membersText depth (named id ((k', w) :: l)) ++ (newline outer ++ '\x7d' :: tail)))
      (stops_cons (by decide) _) (by dsimp only; omega)
    obtain ⟨l', hl', hsame⟩ := ih (done ++ [(k, v')]) k' w fuel (by simpa using hkeys)
      (fun e he => hback e (List.mem_cons_of_mem _ he)) (by omega)
    refine ⟨(k, v') :: l', ?_, .cons ⟨rfl, halike⟩ hsame⟩
    rw [membersText_append, stringText_append, skipSpace_newline depth rfl, ← stringText_append]
    simp only [List.isEmpty_cons, Bool.false_eq_true, if_false, List.cons_append, List.nil_append]
    have hinsert : (named id done).insert (.text k) v' = named id (done ++ [(k, v')]) := insert_named id v' hk
    rw [members?_more hv (skipSpace_of_not rfl _), hinsert, hl', List.append_assoc]
    rfl

theorem value?_object {s : List Char} (h : skipSpace s = '"' :: rest) :
    value? (fuel + 1) ('\x7b' :: s) = (members? fuel [] ('"' :: rest)).map fun p => (.map p.1, p.2) := by
  rw [value?, h]
  show (members? fuel [] ('"' :: rest) >>= fun p => pure (Value.map p.1, p.2)) = _
  cases members? fuel [] ('"' :: rest) <;> rfl

/-- An object is read back with the same keys in the same order. -/
theorem value?_members {l : List (String × Value)} (hkeys : (l.map Prod.fst).Nodup) (h : ∀ e ∈ l, ReadsBack e.2)
    (depth : Nat) (rest : List Char) (hfuel : (valueText depth (.map (named id l))).length ≤ fuel) :
    ∃ l', value? fuel (valueText depth (.map (named id l)) ++ rest) = some (.map (named id l'), rest) ∧
      List.Forall₂ SameMember l l' := by
  cases l with
  | nil =>
    rw [named, List.map_nil, valueText] at hfuel ⊢
    obtain ⟨fuel, rfl⟩ := Nat.exists_eq_add_of_le' (show 1 ≤ fuel by simp at hfuel; omega)
    exact ⟨[], rfl, .nil⟩
  | cons e l =>
    obtain ⟨k, v⟩ := e
    rw [named_cons, valueText, ← named_cons] at hfuel ⊢
    simp only [List.cons_append, List.length_cons, List.length_append] at hfuel
    obtain ⟨fuel, rfl⟩ := Nat.exists_eq_add_of_le' (show 1 ≤ fuel by omega)
    obtain ⟨l', hl', hsame⟩ := members?_text (depth + 1) depth rest l [] k v fuel hkeys h (by omega)
    refine ⟨l', ?_, hsame⟩
    simp only [List.cons_append, List.append_assoc, List.nil_append]
    rw [membersText_append, stringText_append, skipSpace_newline _ rfl] at hl'
    rw [membersText_append, stringText_append, value?_object (skipSpace_newline _ rfl _)]
    rw [show ([] : Entries) = named id [] from rfl, hl']
    rfl

/-! ## Values -/

theorem readsBack_number {v : Value} (h : IsNumber v) {s : List Char} (hs : IsMagnitude s) (negative : Bool)
    (htext : ∀ depth, valueText depth v = signed negative s) : ReadsBack v := by
  intro depth fuel rest hrest hfuel
  obtain ⟨c, cs, hopen, -, -⟩ := opens_valueText depth v
  obtain ⟨fuel, rfl⟩ := Nat.exists_eq_add_of_le' (show 1 ≤ fuel by rw [hopen, List.length_cons] at hfuel; omega)
  obtain ⟨v', hv, hv'⟩ := value?_signed hs negative hrest
  exact ⟨v', by rw [htext, hv], alike_of_not_kept h.not_kept hv'.not_kept⟩

/-- A text that is read as the value itself, whatever stands behind it. -/
theorem readsBack_same {v : Value}
    (h : ∀ depth fuel rest, value? (fuel + 1) (valueText depth v ++ rest) = some (v, rest)) : ReadsBack v := by
  intro depth fuel rest _ hfuel
  obtain ⟨c, cs, hopen, -, -⟩ := opens_valueText depth v
  obtain ⟨fuel, rfl⟩ := Nat.exists_eq_add_of_le' (show 1 ≤ fuel by rw [hopen, List.length_cons] at hfuel; omega)
  exact ⟨v, h depth fuel rest, Alike.refl v⟩

theorem readsBack_float (x : Binary64) : ReadsBack (.float x) := by
  cases x with
  | finite negative m e =>
    refine readsBack_number (.float _) (isMagnitude_magnitudeText m e) negative fun depth => ?_
    rw [Value.float, valueText, scalarText_finite]
  | infinite negative =>
    refine readsBack_same fun depth fuel rest => ?_
    rw [Value.float, valueText]
    cases negative <;> rfl
  | nan =>
    refine readsBack_same fun depth fuel rest => ?_
    rw [Value.float, valueText]
    rfl

/-- What can be read is read back from its text. -/
theorem Readable.readsBack {v : Value} (h : Readable v) : ReadsBack v := by
  induction h with
  | null =>
    refine readsBack_same fun depth fuel rest => ?_
    rw [Value.null, valueText]
    rfl
  | bool b =>
    refine readsBack_same fun depth fuel rest => ?_
    rw [Value.bool, valueText]
    cases b <;> rfl
  | @int n hn =>
    refine readsBack_number (.int n) (isMagnitude_natText hn) (decide (n < 0)) fun depth => ?_
    rw [Value.int, valueText, scalarText_int]
  | float x => exact readsBack_float x
  | text s =>
    refine readsBack_same fun depth fuel rest => ?_
    rw [Value.text, valueText]
    exact value?_text fuel s rest
  | list _ ih => exact readsBack_list ih
  | map hkeys _ ih =>
    intro depth fuel rest _ hfuel
    obtain ⟨l', hl', -⟩ := value?_members hkeys ih depth rest hfuel
    exact ⟨.map (named id l'), hl', alike_of_not_kept id id⟩

/-- A written object, with a line feed behind it, is read back with the same keys in the same order. -/
theorem read?_write_named {l : List (String × Value)} (hkeys : (l.map Prod.fst).Nodup) (h : ∀ e ∈ l, Readable e.2) :
    ∃ l', read? (write (.map (named id l)) ++ "\n") = some (.map (named id l')) ∧ List.Forall₂ SameMember l l' := by
  have htext : (write (.map (named id l)) ++ "\n").toList = valueText 0 (.map (named id l)) ++ ['\n'] := by
    rw [write, String.toList_append, String.toList_ofList]
    rfl
  obtain ⟨c, cs, hopen, hc, -⟩ := opens_valueText 0 (.map (named id l))
  have hskip : skipSpace (valueText 0 (.map (named id l)) ++ ['\n']) = valueText 0 (.map (named id l)) ++ ['\n'] := by
    rw [hopen]
    exact skipSpace_of_not hc _
  obtain ⟨l', hl', hsame⟩ := value?_members hkeys (fun e he => (h e he).readsBack) 0 ['\n']
    (show _ ≤ (valueText 0 (.map (named id l)) ++ ['\n']).length + 1 by rw [List.length_append]; omega)
  refine ⟨l', ?_, hsame⟩
  unfold read?
  rw [htext, hskip]
  dsimp only
  rw [hl']
  rfl

/-! ## What is read -/

theorem natAbs_signed (negative : Bool) (n : Nat) : (if negative then -(n : Int) else n).natAbs = n := by
  cases negative <;> simp

theorem readable_number {s : List Char} {v : Value} (h : number? s = some (v, rest)) : Readable v := by
  unfold number? at h
  dsimp only at h
  split at h
  · cases h
  · split at h
    · split at h
      · cases h
      · rename_i ds _ hds _ _ _ _ _ hlength
        cases h
        refine .int ?_
        rw [natAbs_signed]
        exact Nat.le_trans (length_natText_le (List.length_pos_iff.mpr hds) (Text.numeral_lt ds)) (Nat.not_lt.mp hlength)
    · cases h
      exact .float _

theorem readable_word {w : String} {v v' : Value} (hv : Readable v) {s : List Char}
    (h : (word? w.toList s).map (v, ·) = some (v', rest)) : Readable v' := by
  obtain ⟨_, -, he⟩ := Option.map_eq_some_iff.mp h
  cases he
  exact hv

theorem readable_constant {s : List Char} {v : Value} (h : constant? s = some (v, rest)) : Readable v := by
  unfold constant? at h
  simp only [Option.orElse_eq_orElse, Option.orElse_eq_or, Option.or_eq_some_iff] at h
  rcases h with h | ⟨-, h | ⟨-, h | ⟨-, h | ⟨-, h | ⟨-, h⟩⟩⟩⟩⟩
  · exact readable_word .null h
  · exact readable_word (.bool true) h
  · exact readable_word (.bool false) h
  all_goals exact readable_word (.float _) h

mutual

/-- Whatever is read can be read. -/
theorem readable_of_value? : ∀ {fuel : Nat} {s : List Char} {v : Value} {rest : List Char},
    value? fuel s = some (v, rest) → Readable v
  | 0, _, _, _, h => by cases h
  | fuel + 1, s, v, rest, h => by
    unfold value? at h
    split at h
    · obtain ⟨_, _, h⟩ := Option.bind_eq_some_iff.mp h
      cases h
      exact .text _
    · split at h
      · cases h
        exact .list (List.forall_mem_nil _)
      · obtain ⟨_, hitems, h⟩ := Option.bind_eq_some_iff.mp h
        cases h
        exact .list (readable_of_items? hitems)
    · split at h
      · cases h
        exact .map (l := []) .nil (List.forall_mem_nil _)
      · obtain ⟨_, hmembers, h⟩ := Option.bind_eq_some_iff.mp h
        cases h
        exact readable_of_members? (l := []) .nil (List.forall_mem_nil _) hmembers
    · simp only [Option.orElse_eq_orElse, Option.orElse_eq_or, Option.or_eq_some_iff] at h
      exact h.elim readable_constant fun h => readable_number h.2

theorem readable_of_items? : ∀ {fuel : Nat} {s : List Char} {vs : List Value} {rest : List Char},
    items? fuel s = some (vs, rest) → ∀ v ∈ vs, Readable v
  | 0, _, _, _, h => by cases h
  | fuel + 1, s, vs, rest, h => by
    unfold items? at h
    obtain ⟨⟨v, more⟩, hv, h⟩ := Option.bind_eq_some_iff.mp h
    dsimp only at h
    split at h
    · obtain ⟨_, hvs, h⟩ := Option.bind_eq_some_iff.mp h
      cases h
      exact List.forall_mem_cons.mpr ⟨readable_of_value? hv, readable_of_items? hvs⟩
    · cases h
      exact List.forall_mem_singleton.mpr (readable_of_value? hv)
    · cases h

theorem readable_of_members? : ∀ {fuel : Nat} {l : List (String × Value)} {s : List Char} {es : Entries}
    {rest : List Char}, (l.map Prod.fst).Nodup → (∀ e ∈ l, Readable e.2) →
    members? fuel (named id l) s = some (es, rest) → Readable (.map es)
  | 0, _, _, _, _, _, _, h => by cases h
  | fuel + 1, l, s, es, rest, hkeys, hvalues, h => by
    unfold members? at h
    split at h
    · obtain ⟨⟨key, more⟩, hkey, h⟩ := Option.bind_eq_some_iff.mp h
      dsimp only at h
      split at h
      · obtain ⟨⟨v, more⟩, hv, h⟩ := Option.bind_eq_some_iff.mp h
        obtain ⟨l', hinsert, -, -, hnodup, hfrom⟩ := exists_insert_named id (String.ofList key) v l
        have hl' : ∀ e ∈ l', Readable e.2 := fun e he => by
          rcases hfrom e he with rfl | he
          · exact readable_of_value? hv
          · exact hvalues e he
        dsimp only at h
        rw [show Entries.insert (named id l) (.text (String.ofList key)) v = named id l' from hinsert] at h
        split at h
        · exact readable_of_members? (hnodup hkeys) hl' h
        · cases h
          exact .map (hnodup hkeys) hl'
        · cases h
      · cases h
    · cases h

end

/-- The members of an object that was read stand under distinct keys. -/
theorem exists_named_of_read? {text : String} {es : Entries} (h : read? text = some (.map es)) :
    ∃ l, es = named id l ∧ (l.map Prod.fst).Nodup ∧ ∀ e ∈ l, Readable e.2 := by
  obtain ⟨⟨v, rest⟩, hv, h⟩ := Option.bind_eq_some_iff.mp h
  dsimp only at h
  split at h
  · cases h
    cases readable_of_value? hv with
    | map hkeys hvalues => exact ⟨_, rfl, hkeys, hvalues⟩
  · cases h

/-! ## Order -/

theorem sortedItems_eq_map (vs : List Value) : sortedItems vs = vs.map sorted := by
  induction vs with
  | nil => rfl
  | cons v vs ih => rw [sortedItems, ih, List.map_cons]

theorem sortedMembers_named {α : Type} (f : α → Value) (l : List (String × α)) :
    sortedMembers (named f l) = named (fun a => sorted (f a)) l := by
  induction l with
  | nil => rfl
  | cons e l ih =>
    rw [named_cons f e.1 e.2 l, sortedMembers, ih]
    rfl

theorem exists_sorted_named (l : List (String × Value)) : ∃ l', sorted (.map (named id l)) = .map (named id l') ∧
    l'.Perm (l.map fun e => (e.1, sorted e.2)) := by
  have hmembers : sortedMembers (named id l) = named id (l.map fun e => (e.1, sorted e.2)) := by
    rw [sortedMembers_named, named, named, List.map_map]
    rfl
  obtain ⟨l', hl', hperm⟩ := exists_sortEntries_named id (l.map fun e => (e.1, sorted e.2))
  exact ⟨l', by rw [sorted, hmembers, hl'], hperm⟩

theorem keys_of_perm_sorted {l l' : List (String × Value)} (h : l'.Perm (l.map fun e => (e.1, sorted e.2)))
    (hkeys : (l.map Prod.fst).Nodup) : (l'.map Prod.fst).Nodup := by
  refine (h.map Prod.fst).nodup_iff.mpr ?_
  rw [List.map_map]
  exact hkeys

theorem values_of_perm_sorted {l l' : List (String × Value)} (h : l'.Perm (l.map fun e => (e.1, sorted e.2)))
    (hvalues : ∀ e ∈ l, Readable (sorted e.2)) : ∀ e ∈ l', Readable e.2 := by
  intro e he
  obtain ⟨e₀, he₀, rfl⟩ := List.mem_map.mp (h.mem_iff.mp he)
  exact hvalues e₀ he₀

theorem Readable.sorted {v : Value} (h : Readable v) : Readable (sorted v) := by
  induction h with
  | null => exact .null
  | bool b => exact .bool b
  | int hn => exact .int hn
  | float x => exact .float x
  | text s => exact .text s
  | list _ ih =>
    rw [Json.sorted, sortedItems_eq_map]
    refine .list fun v hv => ?_
    obtain ⟨w, hw, rfl⟩ := List.mem_map.mp hv
    exact ih w hw
  | @map l hkeys _ ih =>
    obtain ⟨l', hl', hperm⟩ := exists_sorted_named l
    rw [hl']
    exact .map (keys_of_perm_sorted hperm hkeys) (values_of_perm_sorted hperm ih)

theorem alike_sorted (v : Value) : Alike v (sorted v) := by
  cases v with
  | scalar s =>
    rw [sorted]
    exact Alike.refl _
  | list _ =>
    rw [sorted]
    exact alike_of_not_kept id id
  | map _ =>
    rw [sorted]
    exact alike_of_not_kept id id

theorem alike_trans : ∀ {o o₁ o' : Option Value}, Option.Rel Alike o o₁ → Option.Rel Alike o₁ o' → Option.Rel Alike o o'
  | _, _, _, .none, .none => .none
  | _, _, _, .some h, .some h' => .some (h.trans h')

theorem lookup_of_sameMember {l l' : List (String × Value)} (h : List.Forall₂ SameMember l l') (key : String) :
    Option.Rel Alike (l.lookup key) (l'.lookup key) := by
  induction h with
  | nil => exact .none
  | @cons e e' l l' he _ ih =>
    obtain ⟨k, v⟩ := e
    obtain ⟨k', v'⟩ := e'
    obtain ⟨rfl, halike⟩ := he
    rw [lookup_cons_ite, lookup_cons_ite]
    split
    · exact .some halike
    · exact ih

/-- An object written in the order of its keys is read back with the same keys, and the same strings and nulls. -/
theorem read?_write_sorted {l : List (String × Value)} (hkeys : (l.map Prod.fst).Nodup)
    (h : ∀ e ∈ l, Readable e.2) :
    ∃ l', read? (write (sorted (.map (named id l))) ++ "\n") = some (.map (named id l')) ∧
      ∀ key, Option.Rel Alike (l.lookup key) (l'.lookup key) := by
  obtain ⟨l₁, hl₁, hperm⟩ := exists_sorted_named l
  have hkeys₁ := keys_of_perm_sorted hperm hkeys
  obtain ⟨l', hl', hsame⟩ := read?_write_named hkeys₁ (values_of_perm_sorted hperm fun e he => (h e he).sorted)
  refine ⟨l', by rw [hl₁, hl'], fun key => ?_⟩
  have hvalues : List.Forall₂ SameMember l (l.map fun e => (e.1, sorted e.2)) := by
    rw [List.forall₂_map_right_iff]
    exact List.forall₂_same.mpr fun e _ => ⟨rfl, alike_sorted e.2⟩
  have hsorted := lookup_of_sameMember hvalues key
  rw [lookup_perm hperm.symm hkeys₁] at hsorted
  exact alike_trans hsorted (lookup_of_sameMember hsame key)

/-! ## Strings under strings -/

theorem pairs_eq_named (es : List (String × String)) : pairs es = named id (es.map fun e => (e.1, .text e.2)) := by
  unfold pairs named
  rw [List.map_map]
  rfl

theorem eq_of_sameMember_text : ∀ {es : List (String × String)} {l' : List (String × Value)},
    List.Forall₂ SameMember (es.map fun e => (e.1, .text e.2)) l' → l' = es.map fun e => (e.1, .text e.2)
  | [], _, .nil => rfl
  | e :: es, (k, v) :: l', .cons ⟨hkey, halike⟩ h => by
    have hv : v = .text e.2 := (halike (.text e.2) trivial).mp rfl
    rw [eq_of_sameMember_text h, List.map_cons, hv, show k = e.1 from hkey.symm]

/-- An object of strings under distinct keys, written in the order of its keys and followed by a line feed. -/
theorem read?_write {es : List (String × String)} (h : (es.map Prod.fst).Nodup) :
    read? (write (sorted (.map (pairs es))) ++ "\n") = some (.map (pairs (inOrder es))) := by
  have hmembers : sortedMembers (pairs es) = pairs es := sortedMembers_named .text es
  rw [sorted, hmembers, sortEntries_pairs, pairs_eq_named]
  have hkeys : (((inOrder es).map fun e => (e.1, Value.text e.2)).map Prod.fst).Nodup := by
    rw [List.map_map]
    exact (keys_inOrder es).nodup_iff.mpr h
  obtain ⟨l', hl', hsame⟩ := read?_write_named hkeys fun e he => by
    obtain ⟨p, -, rfl⟩ := List.mem_map.mp he
    exact .text p.2
  rw [hl', eq_of_sameMember_text hsame]

/-! ## Line breaks -/

theorem not_mem_signed {s : List Char} (h : '\r' ∉ s) (negative : Bool) : '\r' ∉ signed negative s := by
  intro hmem
  rcases Markup.mem_signed hmem with he | hmem
  · cases he
  · exact h hmem

theorem not_mem_scalarText (s : Scalar) : '\r' ∉ scalarText s := by
  cases s with
  | null => decide
  | bool b => cases b <;> decide
  | int n =>
    rw [scalarText_int]
    exact not_mem_signed (Markup.not_mem_of_all (isRun_natText n.natAbs).2 rfl) _
  | float x =>
    cases x with
    | finite negative m e =>
      rw [scalarText_finite]
      exact not_mem_signed (isMagnitude_magnitudeText m e).not_mem negative
    | infinite negative => cases negative <;> decide
    | nan => decide
  | text s => exact not_mem_stringText s
  | date y m d => exact not_mem_stringText (dateText y m d)

mutual

theorem not_mem_valueText : ∀ (depth : Nat) (v : Value), '\r' ∉ valueText depth v
  | depth, .scalar s => by
    rw [valueText]
    exact not_mem_scalarText s
  | depth, .list [] => by
    rw [valueText]
    decide
  | depth, .list (v :: vs) => by
    have hitems := not_mem_itemsText (depth + 1) (v :: vs)
    rw [valueText]
    simp [not_mem_newline, hitems]
  | depth, .map [] => by
    rw [valueText]
    decide
  | depth, .map (e :: es) => by
    have hmembers := not_mem_membersText (depth + 1) (e :: es)
    rw [valueText]
    simp [not_mem_newline, hmembers]

theorem not_mem_itemsText : ∀ (depth : Nat) (vs : List Value), '\r' ∉ itemsText depth vs
  | depth, [] => by
    rw [itemsText]
    exact List.not_mem_nil
  | depth, v :: vs => by
    have hv := not_mem_valueText depth v
    have hvs := not_mem_itemsText depth vs
    rw [itemsText]
    split <;> simp [not_mem_newline, hv, hvs]

theorem not_mem_membersText : ∀ (depth : Nat) (es : List (Scalar × Value)), '\r' ∉ membersText depth es
  | depth, [] => by
    rw [membersText]
    exact List.not_mem_nil
  | depth, (k, v) :: es => by
    have hv := not_mem_valueText depth v
    have hes := not_mem_membersText depth es
    rw [membersText]
    split <;> simp [not_mem_newline, not_mem_stringText, hv, hes]

end

/-- A written value has line feeds for its only line breaks. -/
theorem not_mem_write (v : Value) : '\r' ∉ (write v ++ "\n").toList := by
  rw [write, String.toList_append, String.toList_ofList, List.mem_append, not_or]
  exact ⟨not_mem_valueText 0 v, by decide⟩

end Json
end ByteScope
