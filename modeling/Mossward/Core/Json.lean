import Mossward.Core.JsonNumber
import Mossward.Core.Text

/-!
# JSON texts

Values, the text they are written as, and a reader of such texts. The writer
escapes what Go's `encoding/json` escapes; the reader takes blanks, all escapes
and surrogate pairs, and refuses nesting beyond a given depth. A number that is
not an integer is kept as its text. A record is written without the fields
marked as omitted, and read by looking its names up without regard to case.

Results: `parse_text`, `lookup_members`.
-/
namespace Mossward.Json

open List

inductive Value
  | null
  | bool (b : Bool)
  | num (n : Int)
  | literal (l : Literal)
  | str (s : String)
  | arr (items : List Value)
  | obj (members : List (String × Value))

/-! ## Writing -/

def quotedUnit (n : Nat) : List Char :=
  ['\\', 'u', Nat.digitChar (n / 4096 % 16), Nat.digitChar (n / 256 % 16), Nat.digitChar (n / 16 % 16),
    Nat.digitChar (n % 16)]

/-- Characters written as four hexadecimal digits: controls, the characters
that matter to HTML, and the two line separators. -/
def needsUnit (c : Char) : Bool :=
  c.toNat < 0x20 || c = '<' || c = '>' || c = '&' || c.toNat = 0x2028 || c.toNat = 0x2029

def shortEscapes : List (Char × Char) :=
  [('"', '"'), ('\\', '\\'), ('b', '\x08'), ('f', '\x0c'), ('n', '\n'), ('r', '\r'), ('t', '\t')]

/-- One character inside quotes. -/
def escape (c : Char) : List Char :=
  match shortEscapes.find? fun e => e.2 = c with
  | some e => ['\\', e.1]
  | none => if needsUnit c then quotedUnit c.toNat else [c]

def quote (s : String) : List Char := '"' :: s.toList.flatMap escape ++ ['"']

def separated : List (List Char) → List Char
  | [] => []
  | [x] => x
  | x :: xs => x ++ ',' :: separated xs

mutual

def Value.text : Value → List Char
  | .null => ['n', 'u', 'l', 'l']
  | .bool true => ['t', 'r', 'u', 'e']
  | .bool false => ['f', 'a', 'l', 's', 'e']
  | .num n => integer n
  | .literal l => l.text
  | .str s => quote s
  | .arr items => '[' :: separated (itemTexts items) ++ [']']
  | .obj members => '\x7b' :: separated (memberTexts members) ++ ['\x7d']

def itemTexts : List Value → List (List Char)
  | [] => []
  | v :: vs => v.text :: itemTexts vs

def memberTexts : List (String × Value) → List (List Char)
  | [] => []
  | (name, v) :: ms => (quote name ++ ':' :: v.text) :: memberTexts ms

end

mutual

/-- How deep arrays and objects are nested. -/
def Value.depth : Value → Nat
  | .arr items => itemsDepth items + 1
  | .obj members => membersDepth members + 1
  | _ => 0

def itemsDepth : List Value → Nat
  | [] => 0
  | v :: vs => max v.depth (itemsDepth vs)

def membersDepth : List (String × Value) → Nat
  | [] => 0
  | (_, v) :: ms => max v.depth (membersDepth ms)

end

@[simp] theorem depth_num (n : Int) : (Value.num n).depth = 0 := rfl

@[simp] theorem depth_str (s : String) : (Value.str s).depth = 0 := rfl

def memberText (m : String × Value) : List Char := quote m.1 ++ ':' :: m.2.text

theorem itemTexts_eq (vs : List Value) : itemTexts vs = vs.map Value.text := by
  induction vs with
  | nil => rfl
  | cons v vs ih => rw [itemTexts, ih, map_cons]

theorem memberTexts_eq (ms : List (String × Value)) : memberTexts ms = ms.map memberText := by
  induction ms with
  | nil => rfl
  | cons m ms ih => rw [memberTexts, ih, map_cons, memberText]

variable {n : Nat}

theorem itemsDepth_le_iff {vs : List Value} : itemsDepth vs ≤ n ↔ ∀ v ∈ vs, v.depth ≤ n := by
  induction vs with
  | nil => simp [itemsDepth]
  | cons v vs ih => simp [itemsDepth, ih]

theorem membersDepth_le_iff {ms : List (String × Value)} : membersDepth ms ≤ n ↔ ∀ m ∈ ms, m.2.depth ≤ n := by
  induction ms with
  | nil => simp [membersDepth]
  | cons m ms ih => simp [membersDepth, ih]

/-! ## Reading -/

def isSpace (c : Char) : Bool := c = ' ' || c = '\t' || c = '\r' || c = '\n'

def skipSpace (s : List Char) : List Char := s.dropWhile isSpace

/-- Four hexadecimal digits. -/
def codeUnit : List Char → Option (Nat × List Char)
  | a :: b :: c :: d :: rest => do
    return ((((← hexValue a) * 16 + (← hexValue b)) * 16 + (← hexValue c)) * 16 + (← hexValue d), rest)
  | _ => none

def replacement : Char := '\ufffd'

/-- The character that two halves of a surrogate pair stand for. -/
def surrogatePair (high low : Nat) : Option Char :=
  if 0xd800 ≤ high && high < 0xdc00 && 0xdc00 ≤ low && low < 0xe000 then
    some (Char.ofNat (0x10000 + (high - 0xd800) * 0x400 + (low - 0xdc00)))
  else none

/-- What follows `\u`. Half a pair on its own stands for the replacement
character. -/
def unicode (s : List Char) : Option (Char × List Char) :=
  (codeUnit s).map fun (u, rest) =>
    if 0xd800 ≤ u && u < 0xe000 then
      match rest with
      | '\\' :: 'u' :: s =>
        match codeUnit s with
        | some (low, rest') =>
          match surrogatePair u low with
          | some c => (c, rest')
          | none => (replacement, rest)
        | none => (replacement, rest)
      | _ => (replacement, rest)
    else (Char.ofNat u, rest)

/-- One character inside quotes, or the closing quote. -/
def readChar : List Char → Option (Option Char × List Char)
  | [] => none
  | c :: rest =>
    if c = '"' then some (none, rest)
    else if c = '\\' then
      match rest with
      | [] => none
      | e :: rest =>
        if e = 'u' then (unicode rest).map fun (c, rest) => (some c, rest)
        else if e = '/' then some (some '/', rest)
        else ((shortEscapes.find? fun x => x.1 = e).map fun x => (some x.2, rest))
    else if c.toNat < 0x20 then none
    else some (some c, rest)

/-- The characters up to the closing quote, at most as many as the bound. -/
def readString : Nat → List Char → Option (List Char × List Char)
  | 0, _ => none
  | k + 1, s =>
    match readChar s with
    | none => none
    | some (none, rest) => some ([], rest)
    | some (some c, rest) => (readString k rest).map fun (cs, rest) => (c :: cs, rest)

def string (s : List Char) : Option (String × List Char) :=
  match skipSpace s with
  | '"' :: rest => (readString (rest.length + 1) rest).map fun (cs, rest) => (String.ofList cs, rest)
  | _ => none

def ofToken (l : List Char) : Option Value :=
  match h : integerOf l with
  | some n => some (.num n)
  | none => if hwhole : token l = some (l, []) then some (.literal ⟨l, hwhole, h⟩) else none

/-- What is neither an array nor an object. -/
def scalar (s : List Char) : Option (Value × List Char) :=
  match s with
  | 'n' :: 'u' :: 'l' :: 'l' :: rest => some (.null, rest)
  | 't' :: 'r' :: 'u' :: 'e' :: rest => some (.bool true, rest)
  | 'f' :: 'a' :: 'l' :: 's' :: 'e' :: rest => some (.bool false, rest)
  | '"' :: _ => (string s).map fun (x, rest) => (.str x, rest)
  | _ => (token s).bind fun (l, rest) => (ofToken l).map fun v => (v, rest)

section Elements

variable {α : Type} (p : List Char → Option (α × List Char)) (close : Char)

/-- Elements with commas between them, up to the closing character. -/
def moreElements : Nat → List Char → Option (List α × List Char)
  | 0, _ => none
  | k + 1, s =>
    match p s with
    | none => none
    | some (x, s) =>
      match skipSpace s with
      | [] => none
      | c :: s =>
        if c = close then some ([x], s)
        else if c = ',' then (moreElements k s).map fun (xs, s) => (x :: xs, s)
        else none

def elements (s : List Char) : Option (List α × List Char) :=
  match skipSpace s with
  | [] => none
  | c :: rest => if c = close then some ([], rest) else moreElements p close (s.length + 1) s

end Elements

def member (p : List Char → Option (Value × List Char)) (s : List Char) :
    Option ((String × Value) × List Char) :=
  match string s with
  | none => none
  | some (name, s) =>
    match skipSpace s with
    | ':' :: s => (p s).map fun (v, s) => ((name, v), s)
    | _ => none

/-- A value with at most this nesting, and the rest of the text. -/
def value : Nat → List Char → Option (Value × List Char)
  | 0, s => scalar (skipSpace s)
  | n + 1, s =>
    match skipSpace s with
    | '[' :: rest => (elements (value n) ']' rest).map fun (vs, rest) => (.arr vs, rest)
    | '\x7b' :: rest => (elements (member (value n)) '\x7d' rest).map fun (ms, rest) => (.obj ms, rest)
    | s => scalar s

/-- A whole text. -/
def parse (limit : Nat) (s : List Char) : Option Value :=
  match value limit s with
  | some (v, rest) => if skipSpace rest = [] then some v else none
  | none => none

/-! ## Characters and strings are read back -/

theorem unicode_quotedUnit (h : n < 0xd800) (rest : List Char) :
    unicode ((quotedUnit n).drop 2 ++ rest) = some (Char.ofNat n, rest) := by
  have hu : codeUnit ((quotedUnit n).drop 2 ++ rest) = some (n, rest) := by
    simp only [quotedUnit, List.drop_succ_cons, List.drop_zero, List.cons_append, List.nil_append, codeUnit,
      hexValue_digitChar (Nat.mod_lt _ (show 16 > 0 by decide)), Option.bind_eq_bind, Option.bind_some,
      Option.pure_def, Option.some.injEq, Prod.mk.injEq, and_true]
    omega
  have hp : ¬ (0xd800 ≤ n ∧ n < 0xe000) := by omega
  rw [unicode, hu]
  simp [hp]

variable {c : Char}

theorem needsUnit_lt (h : needsUnit c = true) : c.toNat < 0xd800 := by
  simp only [needsUnit, Bool.or_eq_true, decide_eq_true_eq] at h
  rcases h with ((((h | rfl) | rfl) | rfl) | h) | h
  · omega
  · decide
  · decide
  · decide
  · omega
  · omega

/-- Every short escape is one of its own: its letter names it, and it is not
the letter of the long form. -/
theorem shortEscape_read {e : Char × Char} (he : e ∈ shortEscapes) :
    e.1 ≠ 'u' ∧ e.1 ≠ '/' ∧ shortEscapes.find? (fun x => x.1 = e.1) = some e := by
  have key : ∀ e ∈ shortEscapes,
      e.1 ≠ 'u' ∧ e.1 ≠ '/' ∧ shortEscapes.find? (fun x => x.1 = e.1) = some e := by decide
  exact key e he

theorem readChar_escape (c : Char) (rest : List Char) : readChar (escape c ++ rest) = some (some c, rest) := by
  unfold escape
  cases hfind : shortEscapes.find? fun e => e.2 = c with
  | some e =>
    obtain ⟨hu, hslash, hread⟩ := shortEscape_read (List.mem_of_find?_eq_some hfind)
    have hc : e.2 = c := by simpa using List.find?_some hfind
    simp [readChar, hu, hslash, hread, hc]
  | none =>
    have hquote : c ≠ '"' := by
      rintro rfl
      exact absurd hfind (by decide)
    have hback : c ≠ '\\' := by
      rintro rfl
      exact absurd hfind (by decide)
    by_cases hunit : needsUnit c = true
    · have hread := unicode_quotedUnit (needsUnit_lt hunit) rest
      have hquoted : quotedUnit c.toNat = '\\' :: 'u' :: (quotedUnit c.toNat).drop 2 := rfl
      simp only [hunit, if_true]
      rw [hquoted, cons_append, cons_append, readChar]
      simp [hread]
    · have hcontrol : ¬ c.toNat < 0x20 := fun h => hunit (by simp [needsUnit, h])
      simp [hunit, readChar, hquote, hback, hcontrol]

theorem readString_escape (cs : List Char) {k : Nat} (hk : cs.length < k) (rest : List Char) :
    readString k (cs.flatMap escape ++ '"' :: rest) = some (cs, rest) := by
  induction cs generalizing k with
  | nil =>
    obtain ⟨k, rfl⟩ : ∃ m, k = m + 1 := ⟨k - 1, by simp at hk; omega⟩
    simp [readString, readChar]
  | cons c cs ih =>
    obtain ⟨k, rfl⟩ : ∃ m, k = m + 1 := ⟨k - 1, by simp at hk; omega⟩
    have hrest := @ih k (by simpa using hk)
    rw [List.flatMap_cons, List.append_assoc, readString, readChar_escape]
    simp [hrest]

theorem escape_ne_nil (c : Char) : escape c ≠ [] := by
  unfold escape
  cases shortEscapes.find? fun e => e.2 = c with
  | some e => simp
  | none => by_cases h : needsUnit c = true <;> simp [h, quotedUnit]

theorem length_le_flatMap_escape (cs : List Char) : cs.length ≤ (cs.flatMap escape).length := by
  induction cs with
  | nil => simp
  | cons c cs ih =>
    have := List.length_pos_iff.mpr (escape_ne_nil c)
    rw [List.flatMap_cons, List.length_append, List.length_cons]
    omega

theorem string_quote (s : String) (rest : List Char) : string (quote s ++ rest) = some (s, rest) := by
  have hl := length_le_flatMap_escape s.toList
  have hs : skipSpace (quote s ++ rest) = '"' :: (s.toList.flatMap escape ++ '"' :: rest) := by
    simp [quote, skipSpace, isSpace]
  unfold string
  rw [hs]
  simp only
  rw [readString_escape s.toList (by rw [List.length_append]; omega)]
  simp

/-! ## Values are read back -/

/-- No blank, and not the end of an array or object. -/
def starts (c : Char) : Bool := !isSpace c && c != ']' && c != '\x7d'

theorem number_starts (h : c = '-' ∨ c.isDigit = true) : starts c = true ∧ c ≠ '[' ∧ c ≠ '\x7b' := by
  rcases h with rfl | hd
  · decide
  · simp only [starts, isSpace, Bool.and_eq_true, Bool.not_eq_true', Bool.or_eq_false_iff,
      decide_eq_false_iff_not, bne_iff_ne]
    refine ⟨⟨⟨⟨⟨⟨?_, ?_⟩, ?_⟩, ?_⟩, ?_⟩, ?_⟩, ?_, ?_⟩ <;> (rintro rfl; exact absurd hd (by decide))

theorem integer_starts (n : Int) : ∃ c s, integer n = c :: s ∧ (c = '-' ∨ c.isDigit = true) := by
  cases n with
  | ofNat n =>
    obtain ⟨c, s, hc⟩ := List.exists_cons_of_ne_nil (@Nat.toDigits_ne_nil n 10)
    exact ⟨c, s, hc, .inr (isDigit_toDigits (hc ▸ List.mem_cons_self))⟩
  | negSucc n => exact ⟨'-', _, rfl, .inl rfl⟩

theorem text_head (v : Value) :
    ∃ c s, v.text = c :: s ∧ starts c = true ∧ (v.depth = 0 → c ≠ '[' ∧ c ≠ '\x7b') := by
  cases v with
  | null => exact ⟨_, _, rfl, by decide, by decide⟩
  | bool b => cases b <;> exact ⟨_, _, rfl, by decide, by decide⟩
  | num n =>
    obtain ⟨c, s, hcs, hc⟩ := integer_starts n
    exact ⟨c, s, hcs, (number_starts hc).1, fun _ => (number_starts hc).2⟩
  | literal l =>
    obtain ⟨c, s, hcs, hc⟩ := literal_starts l
    exact ⟨c, s, hcs, (number_starts hc).1, fun _ => (number_starts hc).2⟩
  | str s => exact ⟨_, _, rfl, by decide, fun _ => by decide⟩
  | arr items => exact ⟨_, _, rfl, by decide, by simp [Value.depth]⟩
  | obj mems => exact ⟨_, _, rfl, by decide, by simp [Value.depth]⟩

theorem text_starts (v : Value) : ∃ c s, v.text = c :: s ∧ starts c = true := by
  obtain ⟨c, s, hcs, hs, -⟩ := text_head v
  exact ⟨c, s, hcs, hs⟩

theorem skipSpace_cons (h : isSpace c = false) (s : List Char) : skipSpace (c :: s) = c :: s := by
  simp [skipSpace, h]

theorem skipSpace_text (v : Value) (rest : List Char) : skipSpace (v.text ++ rest) = v.text ++ rest := by
  obtain ⟨c, s, hc, hs⟩ := text_starts v
  have hsp : isSpace c = false := by
    simp only [starts, Bool.and_eq_true, Bool.not_eq_true'] at hs
    exact hs.1.1
  rw [hc, List.cons_append, skipSpace_cons hsp]

theorem ofToken_integer (n : Int) : ofToken (integer n) = some (.num n) := by
  unfold ofToken
  split
  · rename_i m hm
    rw [integerOf_integer] at hm
    rw [Option.some.inj hm]
  · rename_i hm
    rw [integerOf_integer] at hm
    cases hm

theorem ofToken_literal (l : Literal) : ofToken l.text = some (.literal l) := by
  unfold ofToken
  split
  · rename_i m hm
    rw [l.notInteger] at hm
    cases hm
  · rw [dif_pos l.isWhole]

variable {s rest : List Char} {v : Value}

theorem scalar_token {l : List Char} (hc : c = '-' ∨ c.isDigit = true)
    (ht : token (c :: s) = some (l, rest)) (hv : ofToken l = some v) : scalar (c :: s) = some (v, rest) := by
  unfold scalar
  split <;> simp_all

theorem scalar_integer (n : Int) (hre : Stops rest) : scalar (integer n ++ rest) = some (.num n, rest) := by
  obtain ⟨c, s, hcs, hc⟩ := integer_starts n
  have hr := token_integer n hre
  have hv := ofToken_integer n
  rw [hcs] at hr ⊢
  exact scalar_token hc hr (hcs ▸ hv)

theorem scalar_literal (l : Literal) (hre : Stops rest) :
    scalar (l.text ++ rest) = some (.literal l, rest) := by
  obtain ⟨c, s, hcs, hc⟩ := literal_starts l
  have hr := token_literal l hre
  have hv := ofToken_literal l
  rw [hcs] at hr ⊢
  exact scalar_token hc hr (hcs ▸ hv)

section Elements

variable {α : Type} {p : List Char → Option (α × List Char)} {close : Char} {f : α → List Char}

/-- What closes an array or an object is no comma, no blank and no digit. -/
def closes (c : Char) : Bool := c = ']' || c = '\x7d'

theorem closes_facts {c : Char} (h : closes c = true) :
    c ≠ ',' ∧ isSpace c = false ∧ c.isDigit = false ∧ c ∉ ['.', 'e', 'E', '+', '-'] := by
  simp only [closes, Bool.or_eq_true, decide_eq_true_eq] at h
  rcases h with rfl | rfl <;> decide

theorem moreElements_separated (hc : closes close = true) {xs : List α} (hn : xs ≠ [])
    (hp : ∀ x ∈ xs, ∀ rest, Stops rest → p (f x ++ rest) = some (x, rest)) {k : Nat} (hk : xs.length ≤ k)
    (rest : List Char) :
    moreElements p close k (separated (xs.map f) ++ close :: rest) = some (xs, rest) := by
  obtain ⟨hco, hs, hd⟩ := closes_facts hc
  induction xs generalizing k with
  | nil => exact absurd rfl hn
  | cons x xs ih =>
    obtain ⟨k, rfl⟩ : ∃ m, k = m + 1 := ⟨k - 1, by simp at hk; omega⟩
    have hx := hp x List.mem_cons_self
    cases xs with
    | nil =>
      have he : Stops (close :: rest) := by
        rintro c ⟨⟩
        exact hd
      simp only [List.map_cons, List.map_nil, separated]
      rw [moreElements, hx _ he]
      simp [skipSpace_cons hs]
    | cons y ys =>
      have hse : Stops (',' :: (separated ((y :: ys).map f) ++ close :: rest)) := by
        rintro c ⟨⟩
        decide
      have hy := @ih (by simp) (fun z hz => hp z (List.mem_cons_of_mem _ hz)) k (by simpa using hk)
      have ht : separated ((x :: y :: ys).map f) ++ close :: rest =
          f x ++ ',' :: (separated ((y :: ys).map f) ++ close :: rest) := by
        simp [separated]
      rw [ht, moreElements, hx _ hse]
      simp only
      rw [skipSpace_cons (by decide)]
      simp only
      rw [if_neg (Ne.symm hco), hy]
      rfl

theorem length_le_separated {ls : List (List Char)} (h : ∀ l ∈ ls, l ≠ []) :
    ls.length ≤ (separated ls).length := by
  induction ls with
  | nil => simp
  | cons l ls ih =>
    have hl := List.length_pos_iff.mpr (h l List.mem_cons_self)
    have hls := ih fun x hx => h x (List.mem_cons_of_mem _ hx)
    cases ls with
    | nil => exact hl
    | cons l' ls => simp only [separated, List.length_append, List.length_cons] at hls ⊢; omega

theorem elements_separated (hcl : closes close = true) (xs : List α)
    (hp : ∀ x ∈ xs, ∀ rest, Stops rest → p (f x ++ rest) = some (x, rest))
    (hs : ∀ x, ∃ c s, f x = c :: s ∧ starts c = true) (rest : List Char) :
    elements p close (separated (xs.map f) ++ close :: rest) = some (xs, rest) := by
  obtain ⟨-, hsp, -⟩ := closes_facts hcl
  cases xs with
  | nil =>
    simp only [List.map_nil, separated, List.nil_append]
    rw [elements, skipSpace_cons hsp]
    simp
  | cons x xs =>
    obtain ⟨c, s, hcs, hc⟩ := hs x
    simp only [starts, Bool.and_eq_true, Bool.not_eq_true', bne_iff_ne] at hc
    have hf : c ≠ close := by
      simp only [closes, Bool.or_eq_true, decide_eq_true_eq] at hcl
      rcases hcl with rfl | rfl
      · exact hc.1.2
      · exact hc.2
    have ht : ∃ s', separated ((x :: xs).map f) ++ close :: rest = c :: s' := by
      cases xs with
      | nil => exact ⟨s ++ close :: rest, by simp [separated, hcs]⟩
      | cons y ys => exact ⟨s ++ ',' :: separated ((y :: ys).map f) ++ close :: rest, by simp [separated, hcs]⟩
    have hl : (x :: xs).length ≤ (separated ((x :: xs).map f)).length := by
      have := @length_le_separated ((x :: xs).map f) (by
        simp only [List.mem_map]
        rintro _ ⟨y, -, rfl⟩
        obtain ⟨c, s, hcs, -⟩ := hs y
        simp [hcs])
      simpa using this
    have hm := moreElements_separated hcl (List.cons_ne_nil x xs) hp
      (show (x :: xs).length ≤ (separated ((x :: xs).map f) ++ close :: rest).length + 1 by
        rw [List.length_append]; omega) rest
    obtain ⟨s', hs'⟩ := ht
    rw [hs'] at hm ⊢
    rw [elements, skipSpace_cons hc.1.1]
    simp only
    rw [if_neg hf, hm]

end Elements

theorem memberText_starts (m : String × Value) : ∃ c s, memberText m = c :: s ∧ starts c = true :=
  ⟨'"', _, rfl, by decide⟩

theorem member_memberText {p : List Char → Option (Value × List Char)} {m : String × Value}
    (hp : p (m.2.text ++ rest) = some (m.2, rest)) : member p (memberText m ++ rest) = some (m, rest) := by
  have ht : memberText m ++ rest = quote m.1 ++ ':' :: (m.2.text ++ rest) := by simp [memberText]
  rw [ht, member, string_quote]
  simp only
  rw [skipSpace_cons (by decide)]
  simp [hp]

theorem scalar_text (h : v.depth = 0) (hre : Stops rest) : scalar (v.text ++ rest) = some (v, rest) := by
  cases v with
  | null => rfl
  | bool b => cases b <;> rfl
  | num n => exact scalar_integer n hre
  | literal l => exact scalar_literal l hre
  | str s =>
    have hr : string ((Value.str s).text ++ rest) = some (s, rest) := string_quote s rest
    have hq : (Value.str s).text ++ rest = '"' :: (s.toList.flatMap escape ++ ['"'] ++ rest) := by
      simp [Value.text, quote]
    rw [hq] at hr ⊢
    rw [scalar, hr]
    rfl
  | arr items => simp [Value.depth] at h
  | obj mems => simp [Value.depth] at h

theorem value_of_scalar (h : v.depth = 0) (n : Nat) (hre : Stops rest) :
    value n (v.text ++ rest) = some (v, rest) := by
  have hr := scalar_text h hre
  cases n with
  | zero => rw [value, skipSpace_text, hr]
  | succ n =>
    obtain ⟨c, s, hc, -, hn⟩ := text_head v
    obtain ⟨ha, ho⟩ := hn h
    rw [value, skipSpace_text]
    rw [hc] at hr ⊢
    split
    · rename_i he
      exact absurd (cons.inj he).1 ha
    · rename_i he
      exact absurd (cons.inj he).1 ho
    · exact hr

/-- A value is read back at any limit that its nesting keeps to. The induction
is on the limit. -/
theorem value_text (v : Value) (hd : v.depth ≤ n) (hr : Stops rest) :
    value n (v.text ++ rest) = some (v, rest) := by
  induction n generalizing v rest with
  | zero => exact value_of_scalar (by omega) 0 hr
  | succ n ih =>
    cases v with
    | arr items =>
      have hi : ∀ v ∈ items, ∀ rest, Stops rest → value n (v.text ++ rest) = some (v, rest) := by
        intro v hv rest hr
        have hl : itemsDepth items ≤ n := by simpa [Value.depth] using hd
        exact ih v (itemsDepth_le_iff.mp hl v hv) hr
      have ht : (Value.arr items).text ++ rest = '[' :: (separated (items.map Value.text) ++ ']' :: rest) := by
        simp [Value.text, itemTexts_eq]
      rw [value, skipSpace_text, ht]
      simp only
      rw [elements_separated (by decide) items hi text_starts]
      rfl
    | obj mems =>
      have hme : ∀ m ∈ mems, ∀ rest, Stops rest →
          member (value n) (memberText m ++ rest) = some (m, rest) := by
        intro m hm rest hr
        have hl : membersDepth mems ≤ n := by simpa [Value.depth] using hd
        exact member_memberText (ih m.2 (membersDepth_le_iff.mp hl m hm) hr)
      have ht : (Value.obj mems).text ++ rest =
          '\x7b' :: (separated (mems.map memberText) ++ '\x7d' :: rest) := by
        simp [Value.text, memberTexts_eq]
      rw [value, skipSpace_text, ht]
      simp only
      rw [elements_separated (by decide) mems hme memberText_starts]
      rfl
    | _ => exact value_of_scalar rfl _ hr

/-- **Result.** A text is read back as the value it was written from. -/
theorem parse_text {limit : Nat} (h : v.depth ≤ limit) : parse limit v.text = some v := by
  have hr := value_text v h stops_nil
  rw [append_nil] at hr
  rw [parse, hr]
  rfl

/-! ## What is read keeps to the limit -/

theorem scalar_depth (h : scalar s = some (v, rest)) : v.depth = 0 := by
  unfold scalar at h
  split at h
  · cases h
    rfl
  · cases h
    rfl
  · cases h
    rfl
  · obtain ⟨x, -, he⟩ := Option.map_eq_some_iff.mp h
    cases he
    rfl
  · obtain ⟨x, -, hx⟩ := Option.bind_eq_some_iff.mp h
    obtain ⟨w, hw, he⟩ := Option.map_eq_some_iff.mp hx
    cases he
    unfold ofToken at hw
    split at hw
    · cases hw
      rfl
    split at hw
    · cases hw
      rfl
    · cases hw

section
variable {α : Type} {p : List Char → Option (α × List Char)} {close : Char} {P : α → Prop}

theorem moreElements_forall (hp : ∀ s x rest, p s = some (x, rest) → P x) {k : Nat} {s rest : List Char} {xs : List α}
    (h : moreElements p close k s = some (xs, rest)) : ∀ x ∈ xs, P x := by
  induction k generalizing s xs rest with
  | zero => cases h
  | succ k ih =>
    rw [moreElements] at h
    split at h
    · cases h
    rename_i y s' hr
    split at h
    · cases h
    split at h
    · cases h
      simpa using hp _ _ _ hr
    split at h
    · obtain ⟨⟨ys, rest'⟩, hm, he⟩ := Option.map_eq_some_iff.mp h
      cases he
      intro x hx
      rcases mem_cons.mp hx with rfl | hx
      · exact hp _ _ _ hr
      · exact ih hm x hx
    · cases h

theorem elements_forall (hp : ∀ s x rest, p s = some (x, rest) → P x) {s rest : List Char} {xs : List α}
    (h : elements p close s = some (xs, rest)) : ∀ x ∈ xs, P x := by
  unfold elements at h
  split at h
  · cases h
  split at h
  · cases h
    simp
  · exact moreElements_forall hp h

end

theorem value_depth (h : value n s = some (v, rest)) : v.depth ≤ n := by
  induction n generalizing s rest v with
  | zero => exact (scalar_depth h).le
  | succ n ih =>
    rw [value] at h
    split at h
    · obtain ⟨⟨vs, rest'⟩, hr, he⟩ := Option.map_eq_some_iff.mp h
      cases he
      rw [Value.depth, Nat.add_le_add_iff_right, itemsDepth_le_iff]
      exact elements_forall (fun _ _ _ => ih) hr
    · obtain ⟨⟨ms, rest'⟩, hr, he⟩ := Option.map_eq_some_iff.mp h
      cases he
      rw [Value.depth, Nat.add_le_add_iff_right, membersDepth_le_iff]
      refine elements_forall (fun s m rest hm => ?_) hr
      unfold member at hm
      split at hm
      · cases hm
      split at hm
      · obtain ⟨⟨w, rest''⟩, hw, he⟩ := Option.map_eq_some_iff.mp hm
        cases he
        exact ih hw
      · cases hm
    · rw [scalar_depth h]
      exact Nat.zero_le _

theorem parse_depth {limit : Nat} (h : parse limit s = some v) : v.depth ≤ limit := by
  unfold parse at h
  split at h
  · rename_i w rest hr
    split at h
    · cases h
      exact value_depth hr
    · cases h
  · cases h

theorem text_injective {w : Value} (h : v.text = w.text) : v = w := by
  have hv := parse_text (le_max_left v.depth w.depth)
  have hw := parse_text (le_max_right v.depth w.depth)
  rw [h, hw] at hv
  exact (Option.some.inj hv).symm

/-! ## Records -/

/-- A letter in the case that names are compared in. Two letters beyond ASCII
count as `k` and `s`. -/
def foldChar (c : Char) : Char :=
  if c = '\u212a' then 'k' else if c = '\u017f' then 's' else c.toLower

def foldName (name : String) : List Char := name.toList.map foldChar

/-- The member of this name, the last one if there are several. -/
def lookup (name : String) (members : List (String × Value)) : Option Value :=
  (members.reverse.find? fun m => foldName m.1 = foldName name).map (·.2)

/-- A field of a record. One that is empty may be left out. -/
structure Field where
  name : String
  value : Value
  omitted : Bool

def members (fields : List Field) : List (String × Value) :=
  (fields.filter fun f => !f.omitted).map fun f => (f.name, f.value)

/-- No two names are the same up to case. -/
def DistinctNames (names : List String) : Prop := names.Pairwise fun a b => foldName a ≠ foldName b

instance (names : List String) : Decidable (DistinctNames names) :=
  inferInstanceAs (Decidable (names.Pairwise _))

variable {fields : List Field}

theorem eq_of_foldName (hn : DistinctNames (fields.map (·.name))) {f g : Field}
    (hf : f ∈ fields) (hg : g ∈ fields) (h : foldName f.name = foldName g.name) : f = g := by
  have hno : (fields.map fun f => foldName f.name).Nodup := by
    rw [DistinctNames, pairwise_map] at hn
    rw [List.Nodup, pairwise_map]
    exact hn
  exact inj_on_of_nodup_map hno hf hg h

/-- **Result.** A field is found under its name, unless it was omitted. -/
theorem lookup_members (hn : DistinctNames (fields.map (·.name))) {f : Field}
    (hf : f ∈ fields) : lookup f.name (members fields) = if f.omitted then none else some f.value := by
  have hme : ∀ m ∈ (members fields).reverse, foldName m.1 = foldName f.name → f.omitted = false ∧ m.2 = f.value := by
    intro m hm hfo
    simp only [members, mem_reverse, mem_map, mem_filter, Bool.not_eq_true'] at hm
    obtain ⟨g, ⟨hg, hk⟩, rfl⟩ := hm
    obtain rfl := eq_of_foldName hn hg hf hfo
    exact ⟨hk, rfl⟩
  unfold lookup
  cases hfi : (members fields).reverse.find? fun m => foldName m.1 = foldName f.name with
  | none =>
    have ho : f.omitted = true := by
      by_contra hk
      have hi : (f.name, f.value) ∈ (members fields).reverse := by
        simp only [members, mem_reverse, mem_map, mem_filter]
        exact ⟨f, ⟨hf, by simpa using hk⟩, rfl⟩
      exact absurd (find?_eq_none.mp hfi _ hi) (by simp)
    simp [ho]
  | some m =>
    obtain ⟨hk, hv⟩ := hme m (mem_of_find?_eq_some hfi) (by simpa using find?_some hfi)
    simp [hk, hv]

theorem depth_arr_map_le {α : Type} {enc : α → Value} (h : ∀ x, (enc x).depth ≤ n) (xs : List α) :
    (Value.arr (xs.map enc)).depth ≤ n + 1 := by
  rw [Value.depth, Nat.add_le_add_iff_right, itemsDepth_le_iff]
  intro v hv
  obtain ⟨x, -, rfl⟩ := mem_map.mp hv
  exact h x

theorem depth_members_le (h : ∀ f ∈ fields, f.value.depth ≤ n) :
    (Value.obj (members fields)).depth ≤ n + 1 := by
  rw [Value.depth, Nat.add_le_add_iff_right, membersDepth_le_iff]
  intro m hm
  simp only [members, mem_map, mem_filter] at hm
  obtain ⟨f, ⟨hf, -⟩, rfl⟩ := hm
  exact h f hf

end Mossward.Json
