import Mossward.Core.Text

/-!
# CPE names

A CPE 2.3 formatted string is `cpe:2.3:` and eleven components with colons between
them, in which special characters are escaped with a backslash. The import of NVD
records splits it at every colon and removes every backslash:
`internal/intelligence/nvd.go:229-236`.

Result: `parseCPE_text_iff`.
-/
namespace Mossward.L1.Cpe

open List (splitOn_append_cons_self_of_not_mem)

/-- Mirrors `unescapeCPE`. -/
def unescapeCPE (value : List Char) : List Char := value.filter (· ≠ '\\')

/-- Part, vendor, product and version. -/
def parseCPE (value : List Char) : List Char × List Char × List Char × List Char :=
  match value.splitOn ':' with
  | _ :: _ :: part :: vendor :: product :: version :: _ =>
    (part, unescapeCPE vendor, unescapeCPE product, unescapeCPE version)
  | _ => ([], [], [], [])

/-! ## Formatted strings -/

/-- A character of a component. The separator and the backslash are special. -/
structure CPEChar where
  char : Char
  escaped : Bool
  special : char = ':' ∨ char = '\\' → escaped = true

def componentText (component : List CPEChar) : List Char :=
  component.flatMap fun c => if c.escaped then ['\\', c.char] else [c.char]

def componentValue (component : List CPEChar) : List Char := component.map (·.char)

/-- The part is one letter, or a wildcard. -/
structure CPE where
  part : Char
  vendor : List CPEChar
  product : List CPEChar
  version : List CPEChar
  others : List (List CPEChar)
  partKnown : part ∈ ['a', 'h', 'o', '*', '-']
  eleven : others.length = 7

def CPE.text (cpe : CPE) : List Char :=
  "cpe".toList ++ ':' :: ("2.3".toList ++ ':' :: ([cpe.part] ++ ':' :: (componentText cpe.vendor ++ ':' ::
    (componentText cpe.product ++ ':' :: (componentText cpe.version ++
      cpe.others.flatMap fun component => ':' :: componentText component)))))

/-- The component holds neither a colon nor a backslash. -/
def Simple (component : List CPEChar) : Prop := ∀ c ∈ component, c.char ≠ ':' ∧ c.char ≠ '\\'

theorem unescape_text {component : List CPEChar} (h : Simple component) :
    unescapeCPE (componentText component) = componentValue component := by
  induction component with
  | nil => rfl
  | cons c component ih =>
    obtain ⟨hc, h⟩ := List.forall_mem_cons.mp h
    have ht : unescapeCPE (if c.escaped then ['\\', c.char] else [c.char]) = [c.char] := by
      split <;> simp [unescapeCPE, hc.2]
    simp only [componentText, List.flatMap_cons, unescapeCPE, List.filter_append] at ht ih ⊢
    rw [ht, ih h]
    rfl

theorem colon_notMem_text {component : List CPEChar} (h : Simple component) : ':' ∉ componentText component := by
  intro hm
  obtain ⟨c, hc, hm⟩ := List.mem_flatMap.mp hm
  split at hm <;> simp [(h c hc).1.symm] at hm

theorem text_splitOn (cpe : CPE) (hvendor : Simple cpe.vendor) (hproduct : Simple cpe.product)
    (hversion : Simple cpe.version) : ∃ others, cpe.text.splitOn ':' =
      "cpe".toList :: "2.3".toList :: [cpe.part] :: componentText cpe.vendor :: componentText cpe.product ::
        componentText cpe.version :: others := by
  have hpart : ':' ∉ [cpe.part] := by
    intro h
    have hk := cpe.partKnown
    rw [← List.mem_singleton.mp h] at hk
    exact absurd hk (by decide)
  obtain ⟨c, others, ho⟩ := List.exists_cons_of_length_eq_add_one cpe.eleven
  refine ⟨(componentText c ++ others.flatMap fun component => ':' :: componentText component).splitOn ':', ?_⟩
  rw [CPE.text, splitOn_append_cons_self_of_not_mem (by decide), splitOn_append_cons_self_of_not_mem (by decide),
    splitOn_append_cons_self_of_not_mem hpart, splitOn_append_cons_self_of_not_mem (colon_notMem_text hvendor),
    splitOn_append_cons_self_of_not_mem (colon_notMem_text hproduct), ho, List.flatMap_cons, List.cons_append,
    splitOn_append_cons_self_of_not_mem (colon_notMem_text hversion)]

/-- What is read holds neither a separator nor a backslash. -/
theorem plain_unescape {value part : List Char} (h : part ∈ value.splitOn ':') :
    ∀ c ∈ unescapeCPE part, c ≠ ':' ∧ c ≠ '\\' := by
  intro c hc
  obtain ⟨hc, hb⟩ := List.mem_filter.mp hc
  refine ⟨fun he => notMem_of_mem_splitOn h (he ▸ hc), by simpa using hb⟩

theorem plain_parseCPE (value : List Char) : ∀ c, c ∈ (parseCPE value).2.1 ∨ c ∈ (parseCPE value).2.2.1 ∨
    c ∈ (parseCPE value).2.2.2 → c ≠ ':' ∧ c ≠ '\\' := by
  have hp : ∀ part ∈ value.splitOn ':', _ := fun _ => plain_unescape
  intro c hc
  unfold parseCPE at hc
  split at hc
  · rename_i heq
    rw [heq] at hp
    rcases hc with hc | hc | hc <;> exact hp _ (by simp) c hc
  · simp at hc

theorem simple_of_value {component : List CPEChar} (h : ∀ c ∈ componentValue component, c ≠ ':' ∧ c ≠ '\\') :
    Simple component := fun c hc => h c.char (List.mem_map_of_mem hc)

/-- **Names are read back** exactly when vendor, product and version hold no colon and
no backslash. -/
theorem parseCPE_text_iff (cpe : CPE) : parseCPE cpe.text = ([cpe.part], componentValue cpe.vendor,
      componentValue cpe.product, componentValue cpe.version) ↔
    Simple cpe.vendor ∧ Simple cpe.product ∧ Simple cpe.version := by
  constructor
  · intro h
    have hp := plain_parseCPE cpe.text
    rw [h] at hp
    exact ⟨simple_of_value fun c hc => hp c (.inl hc), simple_of_value fun c hc => hp c (.inr (.inl hc)),
      simple_of_value fun c hc => hp c (.inr (.inr hc))⟩
  · rintro ⟨hvendor, hproduct, hversion⟩
    obtain ⟨others, hsplit⟩ := text_splitOn cpe hvendor hproduct hversion
    unfold parseCPE
    rw [hsplit]
    simp only [unescape_text hvendor, unescape_text hproduct, unescape_text hversion]

theorem special_escaped (c : Char) : c = ':' ∨ c = '\\' → decide (c = ':' ∨ c = '\\') = true := decide_eq_true

/-- The component of a text. -/
def component (s : String) : List CPEChar := s.toList.map fun c => ⟨c, c = ':' ∨ c = '\\', special_escaped c⟩

theorem part_known : 'a' ∈ ['a', 'h', 'o', '*', '-'] := by decide

theorem seven_components : (List.replicate 7 (component "*")).length = 7 := by decide

/-- An application, with wildcards behind the version. -/
def application (vendor product version : String) : CPE :=
  ⟨'a', component vendor, component product, component version, List.replicate 7 (component "*"), part_known,
    seven_components⟩

/-- The product ends at its escaped colon, and what follows is taken for the
version; an escaped backslash is lost. -/
theorem parseCPE_misread : parseCPE (application "v" "p:q" "1").text = (['a'], ['v'], ['p'], ['q']) ∧
    parseCPE (application "v" "p\\q" "1").text = (['a'], ['v'], ['p', 'q'], ['1']) := by
  decide +kernel

end Mossward.L1.Cpe
