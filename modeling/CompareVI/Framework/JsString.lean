import CompareVI.Framework.Json
import CompareVI.Framework.Tokens
import Mathlib.Data.Rat.Floor

/-!
# JavaScript strings and numbers

The part of the JavaScript standard library that the sources rely on when they
normalise text: `trim`, `toLowerCase`, `toUpperCase`, `startsWith`, and the
conversions `String(value)` and `Number(value)`.

Case conversion is exact wherever the result can be an ASCII letter, which is
all that a comparison with an ASCII constant can observe: besides the ASCII
letters themselves, the Kelvin sign lowers to `k`, and the dotless i, the long s,
the sharp s and the Latin ligatures raise to ASCII letters. Every other
character is kept.

Text that went through `trim` and `toUpperCase` stays as it is when it goes through
them again (`toUpperCase_trim_idem`).

`toFixed` is exact decimal rounding, a half away from zero going up, which is
what `Number.prototype.toFixed` does on the non-negative numbers it is used on.
-/

namespace Framework

namespace JsString

/-- The characters `String.prototype.trim` and `\s` take for white space. -/
def isWhitespace (c : Char) : Bool :=
  [' ', '\t', '\n', '\r', '\u000b', '\u000c', '\u00a0', '\u1680', '\u2028', '\u2029', '\u202f',
    '\u205f', '\u3000', '\ufeff'].contains c || ('\u2000' ≤ c && c ≤ '\u200a')

/-- The characters after which `^` matches with the `m` flag. -/
def isLineTerminator (c : Char) : Bool :=
  c = '\n' || c = '\r' || c = '\u2028' || c = '\u2029'

/-- `trim` on the characters of a string. -/
def trimList (cs : List Char) : List Char :=
  ((cs.dropWhile isWhitespace).reverse.dropWhile isWhitespace).reverse

def trim (s : String) : String := String.ofList (trimList s.toList)

def lowerChar (c : Char) : Char :=
  if c = '\u212a' then 'k' else c.toLower

def toLowerCase (s : String) : String := String.ofList (s.toList.map lowerChar)

/-- The upper-case form of one character, which may be several characters. -/
def upperChar (c : Char) : List Char :=
  if c = '\u0131' then ['I']
  else if c = '\u017f' then ['S']
  else if c = '\u00df' then ['S', 'S']
  else if c = '\ufb00' then ['F', 'F']
  else if c = '\ufb01' then ['F', 'I']
  else if c = '\ufb02' then ['F', 'L']
  else if c = '\ufb03' then ['F', 'F', 'I']
  else if c = '\ufb04' then ['F', 'F', 'L']
  else if c = '\ufb05' || c = '\ufb06' then ['S', 'T']
  else [c.toUpper]

def toUpperCase (s : String) : String := String.ofList (s.toList.flatMap upperChar)

def startsWith (s pre : String) : Bool := pre.toList.isPrefixOf s.toList

/-- `s.slice(n)`. -/
def slice (s : String) (n : ℕ) : String := String.ofList (s.toList.drop n)

/-- `s.split(separator)` on the characters of a string, for a one-character
separator. -/
def splitList (separator : Char) : List Char → List (List Char)
  | [] => [[]]
  | c :: cs =>
    if c = separator then [] :: splitList separator cs
    else
      match splitList separator cs with
      | [] => [[c]]
      | part :: parts => (c :: part) :: parts

/-- `s.replace(/[^…]+/g, replacement)` on the characters of a string: every
longest run of characters that are not kept is replaced. The flag says whether such
a run is under way. -/
def replaceRuns (keep : Char → Bool) (replacement : List Char) : Bool → List Char → List Char
  | _, [] => []
  | inRun, c :: cs =>
    if keep c then c :: replaceRuns keep replacement false cs
    else (if inRun then [] else replacement) ++ replaceRuns keep replacement true cs

/-- `parts.join(separator)`. -/
def join (separator : String) : List String → String
  | [] => ""
  | [s] => s
  | s :: rest => s ++ separator ++ join separator rest

/-! ### Matching -/

/-- What is left after a literal, matched as with the `i` flag: only the ASCII
letters fold. The literal is given in lower case. -/
def stripLiteral : List Char → List Char → Option (List Char)
  | [], cs => some cs
  | _ :: _, [] => none
  | l :: ls, c :: cs => if c.toLower = l then stripLiteral ls cs else none

/-- The first position at which `m` matches. -/
def firstMatch {β : Type*} (m : List Char → Option β) : List Char → Option β
  | [] => m []
  | c :: cs => (m (c :: cs)).or (firstMatch m cs)

/-- The first position at which `^` and then `m` match, with the `m` flag;
`atStart` says whether `^` matches here. -/
def firstLineMatch {β : Type*} (m : List Char → Option β) : Bool → List Char → Option β
  | atStart, [] => if atStart then m [] else none
  | atStart, c :: cs =>
    (if atStart then m (c :: cs) else none).or (firstLineMatch m (isLineTerminator c) cs)

/-- `\s*name\s*:\s*`, as greedy as possible: what is left of the text. -/
def stripField (name : String) (cs : List Char) : Option (List Char) :=
  (stripLiteral name.toList (cs.dropWhile isWhitespace)).bind fun rest =>
    match rest.dropWhile isWhitespace with
    | ':' :: rest => some (rest.dropWhile isWhitespace)
    | _ => none

/-- `\s*$` with the `m` flag: the white space ahead reaches the end of the text or
of a line. -/
def endsLine (cs : List Char) : Bool :=
  (cs.dropWhile isWhitespace).isEmpty || (cs.takeWhile isWhitespace).any isLineTerminator

/-- `/^\s*name\s*:\s*(choice|…)\s*$/im` at one position: the value of the choice
that the field names. -/
def choiceFieldAt {β : Type*} (name : String) (choices : List (String × β)) (cs : List Char) :
    Option β :=
  (stripField name cs).bind fun rest =>
    choices.findSome? fun choice =>
      (stripLiteral choice.1.toList rest).bind fun rest =>
        if endsLine rest then some choice.2 else none

/-! ### Decimal numbers -/

def digitsToNat (ds : List Char) : ℕ := ds.foldl (fun n c => 10 * n + (c.toNat - '0'.toNat)) 0

/-- The double nearest to a natural number, ties to even, with an unbounded
exponent. -/
def roundToDouble (n : ℕ) : ℕ :=
  if n < 2 ^ 53 then n
  else
    let shift := n.log2 - 52
    let m := n / 2 ^ shift
    let rest := n % 2 ^ shift
    let half := 2 ^ (shift - 1)
    (if half < rest || (rest = half && m % 2 = 1) then m + 1 else m) * 2 ^ shift

/-- `Number(digits)` for a digit string, `none` for `Infinity`: doubles end at
`2 ^ 1024`. -/
def numberOfDigits (ds : List Char) : Option ℕ :=
  let n := roundToDouble (digitsToNat ds)
  if n < (2 ^ 256) ^ 4 then some n else none

/-! ### Normalised text -/

variable {c : Char} {cs : List Char}

theorem exists_letter (h : 'a'.val ≤ c.val ∧ c.val ≤ 'z'.val) :
    ∃ n < 26, c = Char.ofNat (97 + n) := by
  have hlow : 97 ≤ c.toNat := UInt32.le_iff_toNat_le.mp h.1
  have hhigh : c.toNat ≤ 122 := UInt32.le_iff_toNat_le.mp h.2
  refine ⟨c.toNat - 97, by omega, ?_⟩
  rw [Nat.add_sub_cancel' hlow]
  exact (Char.ofNat_toNat c).symm

def raisedChars : List Char :=
  ['\u0131', '\u017f', '\u00df', '\ufb00', '\ufb01', '\ufb02', '\ufb03', '\ufb04', '\ufb05',
    '\ufb06']

theorem upperChar_of_kept (h : ¬ ('a'.val ≤ c.val ∧ c.val ≤ 'z'.val)) (hc : c ∉ raisedChars) :
    upperChar c = [c] := by
  have hsame : c.toUpper = c := by
    unfold Char.toUpper
    rw [dif_neg h]
  simp only [raisedChars, List.mem_cons, List.not_mem_nil, or_false, not_or] at hc
  simp only [upperChar, hc, hsame, if_false, decide_false, Bool.or_self, Bool.false_eq_true]

/-- Raising a character keeps what `trim` looks at, and raising it again adds nothing. -/
def raisesOnce (c : Char) : Bool :=
  upperChar c != [] &&
    (upperChar c).all fun x => isWhitespace x == isWhitespace c && upperChar x == [x]

theorem spec_of_raisesOnce (h : raisesOnce c = true) :
    upperChar c ≠ [] ∧ ∀ x ∈ upperChar c, isWhitespace x = isWhitespace c ∧ upperChar x = [x] := by
  obtain ⟨hne, hall⟩ := Bool.and_eq_true_iff.mp h
  refine ⟨by simpa using hne, fun x hx => ?_⟩
  obtain ⟨hspace, honce⟩ := Bool.and_eq_true_iff.mp (List.all_eq_true.mp hall x hx)
  exact ⟨eq_of_beq hspace, eq_of_beq honce⟩

theorem upperChar_spec (c : Char) :
    upperChar c ≠ [] ∧ ∀ x ∈ upperChar c, isWhitespace x = isWhitespace c ∧ upperChar x = [x] := by
  by_cases h : 'a'.val ≤ c.val ∧ c.val ≤ 'z'.val
  · -- the letters, one by one
    obtain ⟨n, hn, rfl⟩ := exists_letter h
    have hall : (List.range 26).all (fun n => raisesOnce (Char.ofNat (97 + n))) = true := by decide
    exact spec_of_raisesOnce (List.all_eq_true.mp hall n (List.mem_range.mpr hn))
  by_cases hc : c ∈ raisedChars
  · have hall : raisedChars.all raisesOnce = true := by decide
    exact spec_of_raisesOnce (List.all_eq_true.mp hall c hc)
  · have hkept := upperChar_of_kept h hc
    rw [hkept]
    refine ⟨List.cons_ne_nil _ _, fun x hx => ?_⟩
    obtain rfl := List.mem_singleton.mp hx
    exact ⟨rfl, hkept⟩

/-- Neither end of a trimmed text is white space. -/
def Trimmed (cs : List Char) : Prop :=
  (∀ c ∈ cs.head?, isWhitespace c = false) ∧ ∀ c ∈ cs.getLast?, isWhitespace c = false

theorem trimList_of_trimmed (h : Trimmed cs) : trimList cs = cs :=
  Tokens.trim_of_trimmed h

theorem trimmed_trimList (cs : List Char) : Trimmed (trimList cs) := Tokens.trimmed_trim cs

theorem Trimmed.flatMap_upperChar (h : Trimmed cs) :
    Trimmed (cs.flatMap upperChar) := by
  constructor
  · intro x hx
    cases cs with
    | nil => cases hx
    | cons c cs =>
      rw [List.flatMap_cons, List.head?_append_of_ne_nil _ (upperChar_spec c).1] at hx
      rw [((upperChar_spec c).2 x (List.mem_of_head? hx)).1]
      exact h.1 c rfl
  · intro x hx
    rcases List.eq_nil_or_concat' cs with rfl | ⟨init, c, rfl⟩
    · cases hx
    · rw [List.flatMap_append, List.flatMap_singleton,
        List.getLast?_append_of_ne_nil _ (upperChar_spec c).1] at hx
      rw [((upperChar_spec c).2 x (List.mem_of_getLast? hx)).1]
      exact h.2 c (List.getLast?_concat)

theorem flatMap_upperChar_upperChar (cs : List Char) :
    (cs.flatMap upperChar).flatMap upperChar = cs.flatMap upperChar := by
  rw [List.flatMap_assoc]
  congr 1
  funext c
  have hall : ∀ x ∈ upperChar c, upperChar x = [x] := fun x hx => ((upperChar_spec c).2 x hx).2
  rw [List.flatMap_congr hall, List.flatMap_singleton']

@[simp] theorem trim_trim (s : String) : trim (trim s) = trim s := by
  unfold trim
  rw [String.toList_ofList, trimList_of_trimmed (trimmed_trimList _)]

@[simp] theorem toUpperCase_trim_idem (s : String) :
    toUpperCase (trim (toUpperCase (trim s))) = toUpperCase (trim s) := by
  unfold toUpperCase trim
  simp only [String.toList_ofList]
  rw [trimList_of_trimmed (trimmed_trimList _).flatMap_upperChar, flatMap_upperChar_upperChar]

theorem lowerChar_spec (c : Char) :
    isWhitespace (lowerChar c) = isWhitespace c ∧ lowerChar (lowerChar c) = lowerChar c := by
  by_cases hkelvin : c = '\u212a'
  · subst hkelvin
    decide
  by_cases h : 'A'.val ≤ c.val ∧ c.val ≤ 'Z'.val
  · obtain ⟨n, hn, rfl⟩ : ∃ n < 26, c = Char.ofNat (65 + n) := by
      have hlow : 65 ≤ c.toNat := UInt32.le_iff_toNat_le.mp h.1
      have hhigh : c.toNat ≤ 90 := UInt32.le_iff_toNat_le.mp h.2
      refine ⟨c.toNat - 65, by omega, ?_⟩
      rw [Nat.add_sub_cancel' hlow]
      exact (Char.ofNat_toNat c).symm
    have hall : ∀ n < 26, isWhitespace (lowerChar (Char.ofNat (65 + n))) =
        isWhitespace (Char.ofNat (65 + n)) ∧
        lowerChar (lowerChar (Char.ofNat (65 + n))) = lowerChar (Char.ofNat (65 + n)) := by decide
    exact hall n hn
  · have hsame : lowerChar c = c := by
      unfold lowerChar Char.toLower
      rw [if_neg hkelvin, dif_neg h]
    rw [hsame, hsame]
    exact ⟨rfl, rfl⟩

theorem Trimmed.map_lowerChar (h : Trimmed cs) : Trimmed (cs.map lowerChar) := by
  constructor
  · intro x hx
    rw [List.head?_map, Option.mem_map] at hx
    obtain ⟨c, hc, rfl⟩ := hx
    rw [(lowerChar_spec c).1]
    exact h.1 c hc
  · intro x hx
    rw [List.getLast?_map, Option.mem_map] at hx
    obtain ⟨c, hc, rfl⟩ := hx
    rw [(lowerChar_spec c).1]
    exact h.2 c hc

@[simp] theorem toLowerCase_toLowerCase (s : String) :
    toLowerCase (toLowerCase s) = toLowerCase s := by
  unfold toLowerCase
  rw [String.toList_ofList, List.map_map]
  congr 2
  funext c
  exact (lowerChar_spec c).2

@[simp] theorem trim_toLowerCase_trim (s : String) :
    trim (toLowerCase (trim s)) = toLowerCase (trim s) := by
  unfold toLowerCase trim
  simp only [String.toList_ofList]
  rw [trimList_of_trimmed (trimmed_trimList _).map_lowerChar]

end JsString

/-- `Number.prototype.toFixed` read back as a number: rounding to `digits`
decimal places. -/
def toFixed (digits : ℕ) (q : ℚ) : ℚ :=
  (⌊q * 10 ^ digits + 1 / 2⌋ : ℚ) / 10 ^ digits

namespace Json

mutual

/-- `String(value)`. -/
def toJsString : Json → String
  | .null => "null"
  | .bool b => if b then "true" else "false"
  | .num q => toString q
  | .str s => s
  | .arr xs => JsString.join "," (toJsStrings xs)
  | .obj _ => "[object Object]"

/-- The elements of an array as `Array.prototype.join` prints them. -/
def toJsStrings : List Json → List String
  | [] => []
  | .null :: xs => "" :: toJsStrings xs
  | x :: xs => toJsString x :: toJsStrings xs

end

/-- A character of a string as `JSON.stringify` prints it. -/
def escapeChar (c : Char) : List Char :=
  if c = '"' then ['\\', '"']
  else if c = '\\' then ['\\', '\\']
  else if c = '\n' then ['\\', 'n']
  else if c = '\r' then ['\\', 'r']
  else if c = '\t' then ['\\', 't']
  else if c = '\x08' then ['\\', 'b']
  else if c = '\x0c' then ['\\', 'f']
  else if c.toNat < 32 then
    ['\\', 'u', '0', '0'] ++ (if c.toNat < 16 then ['0'] else []) ++ Nat.toDigits 16 c.toNat
  else [c]

/-- A string as `JSON.stringify` prints it. -/
def quote (s : String) : String := String.ofList (['"'] ++ s.toList.flatMap escapeChar ++ ['"'])

mutual

/-- `JSON.stringify(value)`. -/
def stringify : Json → String
  | .null => "null"
  | .bool b => if b then "true" else "false"
  | .num q => toString q
  | .str s => quote s
  | .arr xs => "[" ++ JsString.join "," (stringifyItems xs) ++ "]"
  | .obj fields => "\x7b" ++ JsString.join "," (stringifyFields fields) ++ "\x7d"

def stringifyItems : List Json → List String
  | [] => []
  | x :: xs => stringify x :: stringifyItems xs

def stringifyFields : List (String × Json) → List String
  | [] => []
  | (key, value) :: fields => (quote key ++ ":" ++ stringify value) :: stringifyFields fields

end

/-- `String(value ?? '')`. -/
def stringOrEmpty : Option Json → String
  | none => ""
  | some .null => ""
  | some v => toJsString v

/-- `value ?? fallback`. -/
def nullishOr (value fallback : Option Json) : Option Json :=
  (value.filter (· ≠ .null)).or fallback

/-- `Number(value)`, `none` for `NaN`. A string is read as a decimal integer. -/
def toNumber? : Option Json → Option ℚ
  | none => none
  | some .null => some 0
  | some (.bool b) => some (if b then 1 else 0)
  | some (.num q) => some q
  | some (.str s) =>
    let t := JsString.trim s
    if t = "" then some 0 else t.toInt?.map (fun n => (n : ℚ))
  | some (.arr _) => none
  | some (.obj _) => none

/-- `value?.a?.b…`. -/
def path (value : Option Json) (keys : List String) : Option Json :=
  keys.foldl (fun v key => v.bind fun j => j.get? key) value

@[simp] theorem stringOrEmpty_none : stringOrEmpty none = "" := rfl

@[simp] theorem stringOrEmpty_str (s : String) : stringOrEmpty (some (.str s)) = s := by
  simp [stringOrEmpty, toJsString]

@[simp] theorem toNumber?_none : toNumber? none = none := rfl

end Json

/-! ### Optional texts -/

/-- `String(value).trim() || null`. -/
def optionalTrim (value : String) : Option String :=
  let normalized := JsString.trim value
  if normalized = "" then none else some normalized

/-- `String(value).trim() || null` on an option given as text. -/
def optionText (value : Option String) : Option String := value.bind optionalTrim

/-- `String(value).trim() || null` on a property of a JSON value. -/
def Json.optionText (value : Option Json) : Option String :=
  optionalTrim (Json.stringOrEmpty value)

variable {text value : String}

theorem optionalTrim_idem (h : optionalTrim value = some text) :
    optionalTrim text = some text := by
  simp only [optionalTrim] at h ⊢
  by_cases hblank : JsString.trim value = ""
  · simp [hblank] at h
  · simp only [if_neg hblank, Option.some.injEq] at h
    rw [← h, JsString.trim_trim, if_neg hblank]

theorem optionalTrim_toLowerCase (h : optionalTrim value = some text) :
    optionalTrim (JsString.toLowerCase text) = some (JsString.toLowerCase text) := by
  simp only [optionalTrim] at h ⊢
  by_cases hblank : JsString.trim value = ""
  · simp [hblank] at h
  · simp only [if_neg hblank, Option.some.injEq] at h
    rw [← h, JsString.trim_toLowerCase_trim, if_neg]
    intro hempty
    refine hblank (String.toList_inj.mp ?_)
    have hnil := congrArg String.toList hempty
    rwa [JsString.toLowerCase, String.toList_ofList, String.toList_empty, List.map_eq_nil_iff]
      at hnil

theorem optionText_eq_some_iff {value : Option String} :
    optionText value = some text ↔ ∃ raw, value = some raw ∧ optionalTrim raw = some text :=
  Option.bind_eq_some_iff

@[simp] theorem optionText_optionText (value : Option String) :
    optionText (optionText value) = optionText value := by
  cases h : optionText value with
  | none => rfl
  | some text =>
    obtain ⟨raw, -, hraw⟩ := optionText_eq_some_iff.mp h
    rw [optionText, Option.bind_some, optionalTrim_idem hraw]

/-- `a || b` on texts. -/
def orText (a b : String) : String := if a = "" then b else a

end Framework
