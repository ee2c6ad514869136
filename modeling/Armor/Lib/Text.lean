import Mathlib.Data.List.Infix

/-! Strings as Python reads them: `in`, and `split` on white space. -/
namespace Armor.Text

def contains (s needle : String) : Bool := decide (needle.toList <:+: s.toList)

def startsWith (s start : String) : Bool := start.toList.isPrefixOf s.toList

theorem containsRefl (s : String) : contains s s = true := decide_eq_true (List.infix_refl _)

def isSpace (c : Char) : Bool :=
  (0x09 ≤ c.toNat && c.toNat ≤ 0x0d) || (0x1c ≤ c.toNat && c.toNat ≤ 0x20) || c.toNat == 0x85 || c.toNat == 0xa0 ||
    c.toNat == 0x1680 || (0x2000 ≤ c.toNat && c.toNat ≤ 0x200a) || c.toNat == 0x2028 || c.toNat == 0x2029 ||
    c.toNat == 0x202f || c.toNat == 0x205f || c.toNat == 0x3000

/-- `s.strip()` -/
def strip (s : String) : String :=
  String.ofList ((s.toList.dropWhile isSpace).reverse.dropWhile isSpace).reverse

def wordsAfter (word : List Char) : List Char → List (List Char)
  | [] => if word = [] then [] else [word]
  | c :: rest =>
    if isSpace c then
      if word = [] then wordsAfter [] rest else word :: wordsAfter [] rest
    else wordsAfter (word ++ [c]) rest

/-- `s.split()` -/
def split (s : String) : List String := (wordsAfter [] s.toList).map String.ofList

theorem wordsAfterNonempty {text word w : List Char} (member : w ∈ wordsAfter word text) : w ≠ [] := by
  induction text generalizing word with
  | nil =>
    unfold wordsAfter at member
    split at member
    · cases member
    · next some_ =>
      rw [List.mem_singleton.mp member]
      exact some_
  | cons c rest ih =>
    unfold wordsAfter at member
    split at member
    · split at member
      · exact ih member
      · next some_ =>
        cases List.mem_cons.mp member with
        | inl same =>
          rw [same]
          exact some_
        | inr later => exact ih later
    · exact ih member

theorem wordsAfterSome {text word : List Char} (some_ : word ≠ [] ∨ ∃ c ∈ text, isSpace c = false) :
    wordsAfter word text ≠ [] := by
  induction text generalizing word with
  | nil =>
    cases some_ with
    | inl some_ =>
      rw [wordsAfter, if_neg some_]
      exact List.cons_ne_nil _ _
    | inr found =>
      obtain ⟨c, member, -⟩ := found
      cases member
  | cons c rest ih =>
    unfold wordsAfter
    split
    · next space =>
      split
      · next none_ =>
        refine ih ?_
        cases some_ with
        | inl some_ => exact absurd none_ some_
        | inr found =>
          obtain ⟨d, member, dark⟩ := found
          cases List.mem_cons.mp member with
          | inl same =>
            rw [same, space] at dark
            cases dark
          | inr later => exact .inr ⟨d, later, dark⟩
      · exact List.cons_ne_nil _ _
    · exact ih (.inl (List.append_ne_nil_of_right_ne_nil _ (List.cons_ne_nil _ _)))

theorem splitNonempty {s word : String} (member : word ∈ split s) : word ≠ "" := by
  obtain ⟨w, present, rfl⟩ := List.mem_map.mp member
  intro blank
  have letters := congrArg String.toList blank
  rw [String.toList_ofList] at letters
  exact wordsAfterNonempty present letters

theorem splitOfContains {s needle : String} (found : contains s needle = true)
    (dark : ∃ c ∈ needle.toList, isSpace c = false) : split s ≠ [] := by
  obtain ⟨c, member, dark⟩ := dark
  have inside : c ∈ s.toList := (of_decide_eq_true found).subset member
  have some_ : wordsAfter [] s.toList ≠ [] := wordsAfterSome (.inr ⟨c, inside, dark⟩)
  exact fun none_ => some_ (List.map_eq_nil_iff.mp none_)

theorem wordsAfterSpaces {spaces : List Char} (blank : ∀ c ∈ spaces, isSpace c = true) (word text : List Char) :
    wordsAfter word (text ++ spaces) = wordsAfter word text := by
  have none_ : ∀ spaces : List Char, (∀ c ∈ spaces, isSpace c = true) → wordsAfter [] spaces = [] := by
    intro spaces
    induction spaces with
    | nil => exact fun _ => rfl
    | cons c rest ih =>
      intro blank
      rw [wordsAfter, if_pos (blank c List.mem_cons_self), if_pos rfl]
      exact ih fun d member => blank d (List.mem_cons_of_mem c member)
  induction text generalizing word with
  | nil =>
    cases spaces with
    | nil => rfl
    | cons c rest =>
      have later := none_ rest fun d member => blank d (List.mem_cons_of_mem c member)
      have here : wordsAfter word (c :: rest) = if word = [] then wordsAfter [] rest else word :: wordsAfter [] rest :=
        if_pos (blank c List.mem_cons_self)
      rw [List.nil_append, here, later]
      rfl
  | cons c rest ih =>
    rw [List.cons_append, wordsAfter, wordsAfter, ih, ih]

theorem wordsAfterDrop (text : List Char) : wordsAfter [] (text.dropWhile isSpace) = wordsAfter [] text := by
  induction text with
  | nil => rfl
  | cons c rest ih =>
    rw [List.dropWhile_cons]
    split
    · next space => rw [ih, wordsAfter, if_pos space, if_pos rfl]
    · rfl

theorem splitStrip (s : String) : split (strip s) = split s := by
  let kept := s.toList.dropWhile isSpace
  have ends : (kept.reverse.dropWhile isSpace).reverse ++ (kept.reverse.takeWhile isSpace).reverse = kept := by
    rw [← List.reverse_append, List.takeWhile_append_dropWhile, List.reverse_reverse]
  have blank : ∀ c ∈ (kept.reverse.takeWhile isSpace).reverse, isSpace c = true := fun c member =>
    List.all_eq_true.mp List.all_takeWhile c (List.mem_reverse.mp member)
  have words := wordsAfterSpaces blank [] (kept.reverse.dropWhile isSpace).reverse
  rw [ends] at words
  rw [split, split, strip, String.toList_ofList, ← words, wordsAfterDrop]

end Armor.Text
