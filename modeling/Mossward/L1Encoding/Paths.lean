import Mossward.Core.Bytes

/-!
# Slash-separated paths (`path/filepath`)

A path is a text of bytes; its elements are what stands between the slashes.
`clean` is `filepath.Clean` on a system whose separator is the slash.

Results:
* `elements_join`, `join_inj`: a path of plain names is its elements.
* `parts_of_clean`, `cleanParts_normal`.
-/
namespace Mossward.L1.Paths

open List

def slash : UInt8 := 47

/-- `.` -/
def dot : Bytes := [46]

/-- `..` -/
def dotdot : Bytes := [46, 46]

/-- The elements of a path. -/
def elements (path : Bytes) : List Bytes := path.splitOn slash

def join (parts : List Bytes) : Bytes := [slash].intercalate parts

def cleanStep (rooted : Bool) (acc : List Bytes) (part : Bytes) : List Bytes :=
  if part = [] ∨ part = dot then acc
  else if part = dotdot then
    match acc with
    | last :: rest => if last = dotdot then part :: acc else rest
    | [] => if rooted then [] else [part]
  else part :: acc

/-- The elements that are left; the loop keeps them in reverse. -/
def cleanParts (rooted : Bool) (parts : List Bytes) : List Bytes :=
  (parts.foldl (cleanStep rooted) []).reverse

/-- The elements of a cleaned path as a path again. -/
def fromParts (rooted : Bool) (parts : List Bytes) : Bytes :=
  if rooted then slash :: join parts else if parts = [] then dot else join parts

/-- `filepath.Clean`. -/
def clean (path : Bytes) : Bytes :=
  if path = [] then dot else fromParts (path.head? = some slash) (cleanParts (path.head? = some slash) (elements path))

/-! ## Plain names -/

/-- An element that names an entry of a directory. -/
structure Normal (part : Bytes) : Prop where
  ne_nil : part ≠ []
  ne_dot : part ≠ dot
  ne_dotdot : part ≠ dotdot
  noSlash : slash ∉ part

variable {parts : List Bytes}

theorem elements_join (hn : parts ≠ []) (h : ∀ part ∈ parts, slash ∉ part) : elements (join parts) = parts :=
  splitOn_intercalate slash h hn

variable {part : Bytes}

theorem noSlash_of_mem_elements {path : Bytes} (h : part ∈ elements path) : slash ∉ part := notMem_of_mem_splitOn h

theorem join_elements (path : Bytes) : join (elements path) = path := intercalate_splitOn slash

theorem elements_ne_nil (path : Bytes) : elements path ≠ [] := splitOn_ne_nil slash path

theorem join_cons_cons (a b : Bytes) (ps : List Bytes) :
    join (a :: b :: ps) = a ++ slash :: join (b :: ps) := by
  simp [join]

theorem join_singleton (a : Bytes) : join [a] = a := by
  simp [join]

theorem elements_append_slash {first : Bytes} (h : slash ∉ first) (rest : Bytes) :
    elements (first ++ slash :: rest) = first :: elements rest := by
  have hj : join (first :: elements rest) = first ++ slash :: rest := by
    obtain ⟨snd, more, hpa⟩ := exists_cons_of_ne_nil (elements_ne_nil rest)
    have hr := join_elements rest
    rw [hpa] at hr ⊢
    rw [join_cons_cons, hr]
  rw [← hj]
  apply elements_join (by simp)
  intro part hp
  rcases mem_cons.mp hp with rfl | hp
  · exact h
  · exact noSlash_of_mem_elements hp

theorem join_inj {ps' : List Bytes} (hn : parts ≠ []) (hn' : ps' ≠ [])
    (h : ∀ part ∈ parts, Normal part) (h' : ∀ part ∈ ps', Normal part) (he : join parts = join ps') :
    parts = ps' := by
  rw [← elements_join hn fun part hp => (h part hp).noSlash, he,
    elements_join hn' fun part hp => (h' part hp).noSlash]

/-! ## Cleaning -/

variable {rooted : Bool}

theorem cleanStep_normal (h : Normal part) (acc : List Bytes) : cleanStep rooted acc part = part :: acc := by
  simp only [cleanStep, h.ne_nil, h.ne_dot, h.ne_dotdot, or_self, if_false]

section
variable (h : ∀ part ∈ parts, Normal part)
include h

theorem foldl_cleanStep_normal
    (acc : List Bytes) : parts.foldl (cleanStep rooted) acc = parts.reverse ++ acc := by
  induction parts generalizing acc with
  | nil => rfl
  | cons part parts ih =>
    rw [foldl_cons, cleanStep_normal (h part mem_cons_self),
      ih fun part' hp => h part' (mem_cons_of_mem _ hp)]
    simp

/-- **Plain names stay.** -/
theorem cleanParts_normal : cleanParts rooted parts = parts := by
  rw [cleanParts, foldl_cleanStep_normal h]
  simp

theorem cleanParts_append_dot : cleanParts rooted (parts ++ [dot]) = parts := by
  rw [cleanParts, foldl_append, foldl_cleanStep_normal h]
  simp [cleanStep]

end

/-- What the loop keeps, in reverse: names, and below them leading `..`. -/
structure CleanAcc (acc : List Bytes) : Prop where
  named : ∀ part ∈ acc, part ≠ [] ∧ part ≠ dot ∧ slash ∉ part
  upwards : dotdot ∈ acc → acc.getLast? = some dotdot

variable {acc : List Bytes}

theorem CleanAcc.push (h : CleanAcc acc)
    (hpa : part ≠ [] ∧ part ≠ dot ∧ slash ∉ part) (hu : part = dotdot → acc = [] ∨ dotdot ∈ acc) :
    CleanAcc (part :: acc) := by
  refine ⟨?_, ?_⟩
  · intro part' hp
    rcases mem_cons.mp hp with rfl | hp
    · exact hpa
    · exact h.named part' hp
  · intro hm
    cases acc with
    | nil =>
      rw [mem_singleton.mp hm]
      rfl
    | cons last rest =>
      have ho : dotdot ∈ last :: rest := by
        rcases mem_cons.mp hm with he | ho
        · exact (hu he.symm).resolve_left (by simp)
        · exact ho
      exact h.upwards ho

theorem CleanAcc.pop {last : Bytes} {rest : List Bytes} (h : CleanAcc (last :: rest)) : CleanAcc rest := by
  refine ⟨fun part hp => h.named part (mem_cons_of_mem _ hp), ?_⟩
  intro hm
  have hl := h.upwards (mem_cons_of_mem _ hm)
  cases rest with
  | nil => cases hm
  | cons a rest => rwa [getLast?_cons_cons] at hl

theorem CleanAcc.step (h : CleanAcc acc) (hs : slash ∉ part) (rooted : Bool) :
    CleanAcc (cleanStep rooted acc part) := by
  unfold cleanStep
  split
  · exact h
  rename_i hp
  rw [not_or] at hp
  have hn : part ≠ [] ∧ part ≠ dot ∧ slash ∉ part := ⟨hp.1, hp.2, hs⟩
  split
  · cases acc with
    | nil =>
      dsimp only
      split
      · exact h
      · exact h.push hn fun _ => .inl rfl
    | cons last rest =>
      dsimp only
      split
      · rename_i hl
        exact h.push hn fun _ => .inr (hl ▸ mem_cons_self)
      · exact h.pop
  · rename_i hu
    exact h.push hn fun he => absurd he hu

theorem cleanAcc_foldl (rooted : Bool) (hpa : ∀ part ∈ parts, slash ∉ part)
    (h : CleanAcc acc) : CleanAcc (parts.foldl (cleanStep rooted) acc) := by
  induction parts generalizing acc with
  | nil => exact h
  | cons part parts ih =>
    exact ih (fun part' hp => hpa part' (mem_cons_of_mem _ hp)) (h.step (hpa part mem_cons_self) rooted)

/-- **A cleaned path that stays below.** A relative path that cleaning leaves
as it is, and that does not start with `..`, is `.` or a path of plain names. -/
theorem parts_of_clean {path : Bytes} (hne : path ≠ []) (hc : clean path = path)
    (hr : path.head? ≠ some slash) (hu : (elements path).head? ≠ some dotdot) :
    path = dot ∨ ∀ part ∈ elements path, Normal part := by
  have ha : CleanAcc ((elements path).foldl (cleanStep false) []) :=
    cleanAcc_foldl false (fun part hp => noSlash_of_mem_elements hp) ⟨by simp, by simp⟩
  rw [clean, if_neg hne, decide_eq_false hr, fromParts, if_neg (by simp)] at hc
  split at hc
  · exact .inl hc.symm
  rename_i hpa
  right
  have hn : ∀ part ∈ cleanParts false (elements path), part ≠ [] ∧ part ≠ dot ∧ slash ∉ part := by
    intro part hp
    exact ha.named part (mem_reverse.mp hp)
  -- the elements of the path are those that cleaning left
  have hs : elements path = cleanParts false (elements path) := by
    have := elements_join hpa fun part hp => (hn part hp).2.2
    rwa [hc] at this
  have hno : dotdot ∉ cleanParts false (elements path) := by
    intro hm
    have hl := ha.upwards (mem_reverse.mp hm)
    apply hu
    rw [hs, cleanParts, head?_reverse]
    exact hl
  intro part hp
  rw [hs] at hp
  obtain ⟨h1, h2, h3⟩ := hn part hp
  exact ⟨h1, h2, fun he => hno (he ▸ hp), h3⟩

theorem clean_join (hne : parts ≠ []) (h : ∀ part ∈ parts, Normal part) :
    clean (join parts) = join parts := by
  have hel := elements_join hne fun part hp => (h part hp).noSlash
  obtain ⟨first, rest, rfl⟩ := exists_cons_of_ne_nil hne
  have hf := h first mem_cons_self
  obtain ⟨b, bs, rfl⟩ := exists_cons_of_ne_nil hf.ne_nil
  have hb : b ≠ slash := fun he => hf.noSlash (he ▸ mem_cons_self)
  have hh : (join ((b :: bs) :: rest)).head? = some b := by
    cases rest with
    | nil => rw [join_singleton]; rfl
    | cons c rest => rw [join_cons_cons]; rfl
  have hn : join ((b :: bs) :: rest) ≠ [] := by
    intro he
    rw [he] at hh
    cases hh
  rw [clean, if_neg hn, hh, hel, cleanParts_normal h, fromParts]
  simp [hb]

end Mossward.L1.Paths
