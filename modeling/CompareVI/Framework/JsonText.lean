import CompareVI.Framework.JsString

/-!
# The text of a JSON value

`JSON.stringify` tells values apart (`stringify_injective`): a text can be read back from its
front, and what is behind it is left over. Each kind of value starts with a character of its
own (`kindOf_head`), a string ends at the first quote that is not escaped
(`quote_append_inj`), and a number ends where a character follows that no number has
(`toString_append_inj`), which is why the text behind a value has to start with a delimiter.
-/

namespace Framework
namespace Json

/-! ### Strings -/

def hexValue (c : Char) : ℕ := "0123456789abcdef".toList.idxOf c

def shortEscape (c : Char) : Char :=
  if c = 'n' then '\n'
  else if c = 'r' then '\r'
  else if c = 't' then '\t'
  else if c = 'b' then '\x08'
  else if c = 'f' then '\x0c'
  else c

def readEscape : List Char → Option (Char × List Char)
  | 'u' :: _ :: _ :: a :: b :: cs => some (Char.ofNat (16 * hexValue a + hexValue b), cs)
  | c :: cs => some (shortEscape c, cs)
  | [] => none

def readChar : List Char → Option (Char × List Char)
  | [] => none
  | c :: cs => if c = '"' then none else if c = '\\' then readEscape cs else some (c, cs)

theorem control_digits : ∀ n < 32, ∃ a b,
    (if n < 16 then ['0'] else []) ++ Nat.toDigits 16 n = [a, b] ∧
      16 * hexValue a + hexValue b = n := by
  intro n hn
  refine ⟨Nat.digitChar (n / 16), Nat.digitChar (n % 16), ?_⟩
  revert n
  decide

variable {c : Char} {u v : List Char} {q : ℚ}

theorem readChar_control (h : c.toNat < 32) (cs : List Char) :
    readChar (['\\', 'u', '0', '0'] ++ (if c.toNat < 16 then ['0'] else []) ++
      Nat.toDigits 16 c.toNat ++ cs) = some (c, cs) := by
  obtain ⟨a, b, hdigits, hvalue⟩ := control_digits c.toNat h
  rw [List.append_assoc ['\\', 'u', '0', '0'], hdigits]
  change some (Char.ofNat (16 * hexValue a + hexValue b), cs) = _
  rw [hvalue, Char.ofNat_toNat]

theorem readChar_plain (hquote : c ≠ '"') (hslash : c ≠ '\\') (cs : List Char) :
    readChar ([c] ++ cs) = some (c, cs) := by
  change (if c = '"' then none else if c = '\\' then readEscape cs else some (c, cs)) = _
  rw [if_neg hquote, if_neg hslash]

theorem readChar_escapeChar (c : Char) (cs : List Char) :
    readChar (escapeChar c ++ cs) = some (c, cs) := by
  rw [escapeChar]
  split_ifs with hquote hslash hn hr ht hb hf hcontrol hlow
  · rw [hquote]; rfl
  · rw [hslash]; rfl
  · rw [hn]; rfl
  · rw [hr]; rfl
  · rw [ht]; rfl
  · rw [hb]; rfl
  · rw [hf]; rfl
  · have hread := readChar_control hcontrol cs
    rwa [if_pos hlow] at hread
  · have hread := readChar_control hcontrol cs
    rwa [if_neg hlow] at hread
  · exact readChar_plain hquote hslash cs

theorem flatMap_escapeChar_inj {cs ds : List Char}
    (h : cs.flatMap escapeChar ++ '"' :: u = ds.flatMap escapeChar ++ '"' :: v) :
    cs = ds ∧ u = v := by
  induction cs generalizing ds with
  | nil =>
    cases ds with
    | nil => exact ⟨rfl, (List.cons.inj h).2⟩
    | cons d ds =>
      have hread := congrArg readChar h
      rw [List.flatMap_cons, List.append_assoc, readChar_escapeChar] at hread
      cases hread
  | cons c cs ih =>
    have hread := congrArg readChar h
    rw [List.flatMap_cons, List.append_assoc, readChar_escapeChar] at hread
    cases ds with
    | nil => cases hread
    | cons d ds =>
      rw [List.flatMap_cons, List.append_assoc, readChar_escapeChar] at hread
      obtain ⟨rfl, hrest⟩ := Prod.mk.inj (Option.some.inj hread)
      obtain ⟨rfl, hleft⟩ := ih hrest
      exact ⟨rfl, hleft⟩

theorem toList_quote (s : String) :
    (quote s).toList = '"' :: (s.toList.flatMap escapeChar ++ ['"']) := by
  rw [quote, String.toList_ofList]
  rfl

theorem quote_append_inj {s t : String} (h : (quote s).toList ++ u = (quote t).toList ++ v) :
    s = t ∧ u = v := by
  rw [toList_quote, toList_quote, List.cons_append, List.cons_append, List.append_assoc,
    List.append_assoc] at h
  obtain ⟨hchars, hrest⟩ := flatMap_escapeChar_inj (List.cons.inj h).2
  exact ⟨String.toList_inj.mp hchars, hrest⟩

/-! ### Numbers -/

def isNumberChar (c : Char) : Bool := c.isDigit || c = '-' || c = '/'

theorem toList_natText (n : ℕ) : (toString n).toList = Nat.toDigits 10 n := Nat.toList_repr

theorem natText_injective {m n : ℕ} (h : (toString m).toList = (toString n).toList) : m = n := by
  rw [toList_natText, toList_natText] at h
  calc m = Nat.ofDigitChars 10 (Nat.toDigits 10 m) 0 :=
        (Nat.ofDigitChars_toDigits (by decide) (by decide)).symm
    _ = Nat.ofDigitChars 10 (Nat.toDigits 10 n) 0 := by rw [h]
    _ = n := Nat.ofDigitChars_toDigits (by decide) (by decide)

theorem isDigit_of_mem_natText {n : ℕ} (hc : c ∈ (toString n).toList) :
    c.isDigit = true := by
  rw [toList_natText] at hc
  exact Nat.isDigit_of_mem_toDigits (by decide) (by decide) hc

theorem toList_intText (z : ℤ) : (toString z).toList =
    (if z < 0 then ['-'] else []) ++ (toString z.natAbs).toList := by
  cases z with
  | ofNat n => rfl
  | negSucc n =>
    change ("-" ++ toString (n + 1)).toList = _
    rw [String.toList_append, if_pos (Int.negSucc_lt_zero n)]
    rfl

theorem intText_injective {y z : ℤ} (h : (toString y).toList = (toString z).toList) : y = z := by
  rw [toList_intText, toList_intText] at h
  have hdash : ∀ n : ℕ, '-' ∉ (toString n).toList := fun n hmem =>
    absurd (isDigit_of_mem_natText hmem) (by decide)
  by_cases hy : y < 0
  · by_cases hz : z < 0
    · rw [if_pos hy, if_pos hz] at h
      have habs := natText_injective (List.append_cancel_left h)
      omega
    · rw [if_pos hy, if_neg hz, List.nil_append] at h
      have hmem : '-' ∈ ['-'] ++ (toString y.natAbs).toList := List.mem_cons_self
      rw [h] at hmem
      exact absurd hmem (hdash z.natAbs)
  · by_cases hz : z < 0
    · rw [if_neg hy, if_pos hz, List.nil_append] at h
      have hmem : '-' ∈ ['-'] ++ (toString z.natAbs).toList := List.mem_cons_self
      rw [← h] at hmem
      exact absurd hmem (hdash y.natAbs)
    · rw [if_neg hy, if_neg hz] at h
      have habs := natText_injective h
      omega

theorem slash_not_mem_intText (z : ℤ) : '/' ∉ (toString z).toList := by
  intro hmem
  rw [toList_intText] at hmem
  rcases List.mem_append.mp hmem with hsign | hdigits
  · split at hsign
    · exact absurd (List.mem_singleton.mp hsign) (by decide)
    · cases hsign
  · exact absurd (isDigit_of_mem_natText hdigits) (by decide)

theorem isNumberChar_of_mem_intText {z : ℤ} (hc : c ∈ (toString z).toList) :
    isNumberChar c = true := by
  rw [toList_intText] at hc
  rcases List.mem_append.mp hc with hsign | hdigits
  · split at hsign
    · rw [List.mem_singleton.mp hsign]
      decide
    · cases hsign
  · rw [isNumberChar, isDigit_of_mem_natText hdigits]
    rfl

theorem toList_ratText (q : ℚ) : (toString q).toList = (toString q.num).toList ++
    if q.den = 1 then [] else '/' :: (toString q.den).toList := by
  by_cases hden : q.den = 1
  · rw [if_pos hden, List.append_nil]
    change (if q.den = 1 then toString q.num else _).toList = _
    rw [if_pos hden]
  · rw [if_neg hden]
    change (if q.den = 1 then toString q.num else _).toList = _
    rw [if_neg hden]
    simp [toString, String.toList_append]

theorem cut_at_slash {xs ys us vs : List Char} (hxs : '/' ∉ xs) (hys : '/' ∉ ys)
    (h : xs ++ '/' :: us = ys ++ '/' :: vs) : xs = ys ∧ us = vs := by
  have hxy := congrArg (List.splitOn '/') h
  rw [List.splitOn_append_cons_self_of_not_mem hxs,
    List.splitOn_append_cons_self_of_not_mem hys] at hxy
  obtain rfl : xs = ys := (List.cons.inj hxy).1
  exact ⟨rfl, (List.cons.inj (List.append_cancel_left h)).2⟩

theorem ratText_injective {r : ℚ} (h : (toString q).toList = (toString r).toList) : q = r := by
  rw [toList_ratText, toList_ratText] at h
  have hq := slash_not_mem_intText q.num
  have hr := slash_not_mem_intText r.num
  by_cases hqden : q.den = 1
  · by_cases hrden : r.den = 1
    · rw [if_pos hqden, if_pos hrden, List.append_nil, List.append_nil] at h
      exact Rat.ext (intText_injective h) (hqden.trans hrden.symm)
    · rw [if_pos hqden, if_neg hrden, List.append_nil] at h
      rw [h] at hq
      exact absurd (List.mem_append_right _ List.mem_cons_self) hq
  · by_cases hrden : r.den = 1
    · rw [if_neg hqden, if_pos hrden, List.append_nil] at h
      rw [← h] at hr
      exact absurd (List.mem_append_right _ List.mem_cons_self) hr
    · rw [if_neg hqden, if_neg hrden] at h
      obtain ⟨hnum, hden⟩ := cut_at_slash hq hr h
      exact Rat.ext (intText_injective hnum) (natText_injective hden)

theorem isNumberChar_of_mem_ratText (hc : c ∈ (toString q).toList) :
    isNumberChar c = true := by
  rw [toList_ratText] at hc
  rcases List.mem_append.mp hc with hnum | hden
  · exact isNumberChar_of_mem_intText hnum
  · split at hden
    · cases hden
    · rcases List.mem_cons.mp hden with rfl | hden
      · decide
      · rw [isNumberChar, isDigit_of_mem_natText hden]
        rfl

theorem ratText_ne_nil (q : ℚ) : (toString q).toList ≠ [] := by
  rw [toList_ratText, toList_intText]
  intro hnil
  have hdigits := (List.append_eq_nil_iff.mp (List.append_eq_nil_iff.mp hnil).1).2
  rw [toList_natText] at hdigits
  exact Nat.toDigits_ne_nil hdigits

/-- A text that no number can go on with. -/
def Delimited (u : List Char) : Prop := ∀ c ∈ u.head?, isNumberChar c = false

theorem takeWhile_number {xs : List Char} (hxs : ∀ c ∈ xs, isNumberChar c = true)
    (hu : Delimited u) : (xs ++ u).takeWhile isNumberChar = xs := by
  rw [List.takeWhile_append_of_pos hxs]
  cases u with
  | nil => rw [List.takeWhile_nil, List.append_nil]
  | cons c u =>
    rw [List.takeWhile_cons_of_neg (by rw [hu c rfl]; exact Bool.false_ne_true), List.append_nil]

theorem toString_append_inj {r : ℚ} (hu : Delimited u) (hv : Delimited v)
    (h : (toString q).toList ++ u = (toString r).toList ++ v) : q = r ∧ u = v := by
  have htext := congrArg (List.takeWhile isNumberChar) h
  rw [takeWhile_number (fun c hc => isNumberChar_of_mem_ratText hc) hu,
    takeWhile_number (fun c hc => isNumberChar_of_mem_ratText hc) hv] at htext
  obtain rfl := ratText_injective htext
  exact ⟨rfl, List.append_cancel_left h⟩

/-! ### Values -/

def kindOf (c : Char) : ℕ :=
  if c = 'n' then 0
  else if c = 't' ∨ c = 'f' then 1
  else if isNumberChar c then 2
  else if c = '"' then 3
  else if c = '[' then 4
  else if c = '\x7b' then 5
  else 6

def kind : Json → ℕ
  | .null => 0
  | .bool _ => 1
  | .num _ => 2
  | .str _ => 3
  | .arr _ => 4
  | .obj _ => 5

theorem kindOf_of_isNumberChar (h : isNumberChar c = true) : kindOf c = 2 := by
  have hne : ∀ d, isNumberChar d = false → c ≠ d := by
    rintro d hd rfl
    rw [h] at hd
    cases hd
  rw [kindOf, if_neg (hne 'n' (by decide)),
    if_neg (not_or.mpr ⟨hne 't' (by decide), hne 'f' (by decide)⟩), if_pos h]

theorem kindOf_head (a : Json) : ∃ c cs, (stringify a).toList = c :: cs ∧ kindOf c = kind a := by
  cases a with
  | null => exact ⟨_, _, rfl, by decide⟩
  | bool b => cases b <;> exact ⟨_, _, rfl, by decide⟩
  | num q =>
    obtain ⟨c, cs, htext⟩ := List.exists_cons_of_ne_nil (ratText_ne_nil q)
    refine ⟨c, cs, by rw [stringify, htext], kindOf_of_isNumberChar ?_⟩
    exact isNumberChar_of_mem_ratText (by rw [htext]; exact List.mem_cons_self)
  | str s => exact ⟨_, _, by rw [stringify, toList_quote], rfl⟩
  | arr xs =>
    refine ⟨'[', (JsString.join "," (stringifyItems xs) ++ "]").toList, ?_, rfl⟩
    rw [stringify, String.append_assoc, String.toList_append]
    rfl
  | obj fields =>
    refine ⟨'\x7b', (JsString.join "," (stringifyFields fields) ++ "\x7d").toList, ?_, rfl⟩
    rw [stringify, String.append_assoc, String.toList_append]
    rfl

theorem kind_eq_of_append {a b : Json} (h : (stringify a).toList ++ u = (stringify b).toList ++ v) :
    kind a = kind b := by
  obtain ⟨c, cs, hc, hkind⟩ := kindOf_head a
  obtain ⟨d, ds, hd, hkind'⟩ := kindOf_head b
  rw [hc, hd, List.cons_append, List.cons_append] at h
  rw [← hkind, ← hkind', (List.cons.inj h).1]

def tailText (texts : List String) : List Char := texts.flatMap fun text => ',' :: text.toList

theorem toList_join_comma (text : String) (texts : List String) :
    (JsString.join "," (text :: texts)).toList = text.toList ++ tailText texts := by
  induction texts generalizing text with
  | nil => rw [JsString.join, tailText, List.flatMap_nil, List.append_nil]
  | cons other texts ih =>
    rw [JsString.join, String.toList_append, String.toList_append, ih, tailText, tailText,
      List.flatMap_cons, List.append_assoc]
    · rfl
    · exact List.cons_ne_nil other texts

theorem delimited_tailText {close : Char} (hclose : isNumberChar close = false)
    (texts : List String) (u : List Char) : Delimited (tailText texts ++ close :: u) := by
  intro c hc
  cases texts with
  | nil =>
    obtain rfl : close = c := Option.some.inj hc
    exact hclose
  | cons text texts =>
    obtain rfl : ',' = c := Option.some.inj hc
    decide

theorem toList_stringify_arr (xs : List Json) (u : List Char) :
    (stringify (.arr xs)).toList ++ u =
      '[' :: ((JsString.join "," (stringifyItems xs)).toList ++ ']' :: u) := by
  rw [stringify, String.toList_append, String.toList_append, List.append_assoc, List.append_assoc]
  rfl

theorem toList_stringify_obj (fields : List (String × Json)) (u : List Char) :
    (stringify (.obj fields)).toList ++ u =
      '\x7b' :: ((JsString.join "," (stringifyFields fields)).toList ++ '\x7d' :: u) := by
  rw [stringify, String.toList_append, String.toList_append, List.append_assoc, List.append_assoc]
  rfl

theorem toList_field (key : String) (value : Json) (u : List Char) :
    (quote key ++ ":" ++ stringify value).toList ++ u =
      (quote key).toList ++ ':' :: ((stringify value).toList ++ u) := by
  rw [String.toList_append, String.toList_append, List.append_assoc, List.append_assoc]
  rfl

mutual

/-- **A value is read back from the front of a text.** -/
theorem stringify_append_inj : ∀ (a b : Json) {u v : List Char}, Delimited u → Delimited v →
    (stringify a).toList ++ u = (stringify b).toList ++ v → a = b ∧ u = v
  | .null, b, u, v => fun _ _ h => by
    have hkind := kind_eq_of_append h
    cases b with
    | null => exact ⟨rfl, List.append_cancel_left h⟩
    | _ => cases hkind
  | .bool x, b, u, v => fun _ _ h => by
    have hkind := kind_eq_of_append h
    cases b with
    | bool y =>
      cases x <;> cases y
      · exact ⟨rfl, List.append_cancel_left h⟩
      · cases (List.cons.inj h).1
      · cases (List.cons.inj h).1
      · exact ⟨rfl, List.append_cancel_left h⟩
    | _ => cases hkind
  | .num q, b, u, v => fun hu hv h => by
    have hkind := kind_eq_of_append h
    cases b with
    | num r =>
      obtain ⟨rfl, hrest⟩ := toString_append_inj hu hv h
      exact ⟨rfl, hrest⟩
    | _ => cases hkind
  | .str s, b, u, v => fun _ _ h => by
    have hkind := kind_eq_of_append h
    cases b with
    | str t =>
      obtain ⟨rfl, hrest⟩ := quote_append_inj h
      exact ⟨rfl, hrest⟩
    | _ => cases hkind
  | .arr xs, b, u, v => fun _ _ h => by
    have hkind := kind_eq_of_append h
    cases b with
    | arr ys =>
      rw [toList_stringify_arr, toList_stringify_arr] at h
      obtain ⟨rfl, hrest⟩ := items_append_inj xs ys (List.cons.inj h).2
      exact ⟨rfl, hrest⟩
    | _ => cases hkind
  | .obj fields, b, u, v => fun _ _ h => by
    have hkind := kind_eq_of_append h
    cases b with
    | obj others =>
      rw [toList_stringify_obj, toList_stringify_obj] at h
      obtain ⟨rfl, hrest⟩ := fields_append_inj fields others (List.cons.inj h).2
      exact ⟨rfl, hrest⟩
    | _ => cases hkind

theorem items_append_inj : ∀ (xs ys : List Json) {u v : List Char},
    (JsString.join "," (stringifyItems xs)).toList ++ ']' :: u =
      (JsString.join "," (stringifyItems ys)).toList ++ ']' :: v → xs = ys ∧ u = v
  | [], [], _, _, h => ⟨rfl, (List.cons.inj h).2⟩
  | [], y :: ys, _, _, h => by
    obtain ⟨c, cs, hc, hkind⟩ := kindOf_head y
    rw [stringifyItems, stringifyItems, toList_join_comma, hc] at h
    rw [← (List.cons.inj h).1] at hkind
    cases y <;> cases hkind
  | x :: xs, [], _, _, h => by
    obtain ⟨c, cs, hc, hkind⟩ := kindOf_head x
    rw [stringifyItems, stringifyItems, toList_join_comma, hc] at h
    rw [(List.cons.inj h).1] at hkind
    cases x <;> cases hkind
  | x :: xs, y :: ys, u, v, h => by
    rw [stringifyItems, stringifyItems, toList_join_comma, toList_join_comma, List.append_assoc,
      List.append_assoc] at h
    obtain ⟨rfl, hrest⟩ := stringify_append_inj x y (delimited_tailText (by decide) _ u)
      (delimited_tailText (by decide) _ v) h
    obtain ⟨rfl, hleft⟩ := items_tail_inj xs ys hrest
    exact ⟨rfl, hleft⟩

theorem items_tail_inj : ∀ (xs ys : List Json) {u v : List Char},
    tailText (stringifyItems xs) ++ ']' :: u = tailText (stringifyItems ys) ++ ']' :: v →
      xs = ys ∧ u = v
  | [], [], _, _, h => ⟨rfl, (List.cons.inj h).2⟩
  | [], _ :: _, _, _, h => by cases (List.cons.inj h).1
  | _ :: _, [], _, _, h => by cases (List.cons.inj h).1
  | x :: xs, y :: ys, u, v, h => by
    rw [stringifyItems, stringifyItems, tailText, tailText, List.flatMap_cons, List.flatMap_cons,
      List.append_assoc, List.append_assoc] at h
    obtain ⟨rfl, hrest⟩ := stringify_append_inj x y (delimited_tailText (by decide) _ u)
      (delimited_tailText (by decide) _ v) (List.cons.inj h).2
    obtain ⟨rfl, hleft⟩ := items_tail_inj xs ys hrest
    exact ⟨rfl, hleft⟩

theorem fields_append_inj : ∀ (fs gs : List (String × Json)) {u v : List Char},
    (JsString.join "," (stringifyFields fs)).toList ++ '\x7d' :: u =
      (JsString.join "," (stringifyFields gs)).toList ++ '\x7d' :: v → fs = gs ∧ u = v
  | [], [], _, _, h => ⟨rfl, (List.cons.inj h).2⟩
  | [], (l, b) :: gs, _, _, h => by
    rw [stringifyFields, stringifyFields, toList_join_comma, List.append_assoc, toList_field,
      toList_quote] at h
    cases (List.cons.inj h).1
  | (k, a) :: fs, [], _, _, h => by
    rw [stringifyFields, stringifyFields, toList_join_comma, List.append_assoc, toList_field,
      toList_quote] at h
    cases (List.cons.inj h).1
  | (k, a) :: fs, (l, b) :: gs, u, v, h => by
    rw [stringifyFields, stringifyFields, toList_join_comma, toList_join_comma, List.append_assoc,
      List.append_assoc, toList_field, toList_field] at h
    obtain ⟨rfl, hvalue⟩ := quote_append_inj h
    obtain ⟨rfl, hrest⟩ := stringify_append_inj a b (delimited_tailText (by decide) _ u)
      (delimited_tailText (by decide) _ v) (List.cons.inj hvalue).2
    obtain ⟨rfl, hleft⟩ := fields_tail_inj fs gs hrest
    exact ⟨rfl, hleft⟩

theorem fields_tail_inj : ∀ (fs gs : List (String × Json)) {u v : List Char},
    tailText (stringifyFields fs) ++ '\x7d' :: u =
      tailText (stringifyFields gs) ++ '\x7d' :: v → fs = gs ∧ u = v
  | [], [], _, _, h => ⟨rfl, (List.cons.inj h).2⟩
  | [], _ :: _, _, _, h => by cases (List.cons.inj h).1
  | _ :: _, [], _, _, h => by cases (List.cons.inj h).1
  | (k, a) :: fs, (l, b) :: gs, u, v, h => by
    rw [stringifyFields, stringifyFields, tailText, tailText, List.flatMap_cons,
      List.flatMap_cons, List.append_assoc, List.append_assoc, List.cons_append,
      List.cons_append] at h
    have hfield := (List.cons.inj h).2
    rw [toList_field, toList_field] at hfield
    obtain ⟨rfl, hvalue⟩ := quote_append_inj hfield
    obtain ⟨rfl, hrest⟩ := stringify_append_inj a b (delimited_tailText (by decide) _ u)
      (delimited_tailText (by decide) _ v) (List.cons.inj hvalue).2
    obtain ⟨rfl, hleft⟩ := fields_tail_inj fs gs hrest
    exact ⟨rfl, hleft⟩

end

/-- **`JSON.stringify` tells values apart.** -/
theorem stringify_injective : Function.Injective stringify := by
  intro a b h
  have hdelimited : Delimited [] := by
    intro c hc
    cases hc
  refine (stringify_append_inj a b hdelimited hdelimited ?_).1
  rw [h]

end Json
end Framework
