import TemplateTree.Path

/-! Where a text is cut: at the first of its separators, wherever that stands. The places are
described here by what stands around them, without a search, and the functions that search are shown
to find them. -/
namespace TemplateTree.SlotSuffix

/-- The separator stands somewhere in the text. -/
def Occurs (text : String) : Prop := [':', ':'] <:+: text.toList

instance : DecidablePred Occurs := fun text =>
  inferInstanceAs (Decidable ([':', ':'] <:+: text.toList))

/-- `before` and `behind` are what stands on the two sides of the first separator. Separators may
overlap: the first one of `a:::b` has `a` before it and `:b` behind. -/
structure Cuts (text before behind : String) : Prop where
  eq : text = before ++ "::" ++ behind
  first : ∀ pre post, text = pre ++ "::" ++ post → before.length ≤ pre.length

/-- The stem of a text ends at the first separator; without one it is the whole text. -/
def IsStem (text stem : String) : Prop :=
  (∃ behind, Cuts text stem behind) ∨ ¬ Occurs text ∧ stem = text

/-- The text is a name and, behind the first separator, a slot. The name is not empty, and a second
separator ends the slot. -/
def Names (text name : String) (slot : SlotName) : Prop :=
  name ≠ "" ∧ ∃ behind, Cuts text name behind ∧ IsStem behind slot.text

/-! ### Occurrences -/

/-- A separator of two lists in a row stands in the first, stands in the second, or has one colon in
each. -/
theorem separator_append_iff {xs ys : List Char} :
    [':', ':'] <:+: xs ++ ys ↔ [':', ':'] <:+: xs ∨ [':', ':'] <:+: ys ∨
      xs.getLast? = some ':' ∧ ys.head? = some ':' := by
  rw [List.infix_append_iff, ← List.singleton_suffix_iff_getLast?_eq_some,
    ← List.singleton_prefix_iff_head?_eq_some]
  constructor
  · rintro (hx | hy | ⟨l₁, l₂, heq, hsuffix, hprefix⟩)
    · exact .inl hx
    · exact .inr (.inl hy)
    · rcases l₁ with _ | ⟨c, _ | ⟨d, rest⟩⟩
      · obtain rfl : l₂ = [':', ':'] := by simpa using heq.symm
        exact .inr (.inl hprefix.isInfix)
      · obtain ⟨rfl, rfl⟩ : ':' = c ∧ [':'] = l₂ := by simpa using heq
        exact .inr (.inr ⟨hsuffix, hprefix⟩)
      · obtain ⟨rfl, rfl, rfl, -⟩ : ':' = c ∧ ':' = d ∧ rest = [] ∧ l₂ = [] := by simpa using heq
        exact .inl hsuffix.isInfix
  · rintro (hx | hy | ⟨hlast, hhead⟩)
    · exact .inl hx
    · exact .inr (.inl hy)
    · exact .inr (.inr ⟨[':'], [':'], rfl, hlast, hhead⟩)

theorem occurs_append_iff {x y : String} (apart : x.toList.getLast? ≠ some ':') :
    Occurs (x ++ y) ↔ Occurs x ∨ Occurs y := by
  simp [Occurs, separator_append_iff, apart]

theorem Occurs.mem {text : String} (h : Occurs text) : ':' ∈ text.toList :=
  h.subset (by simp)

/-! ### Cutting lists of characters -/

@[simp] theorem cut_separator (rest : List Char) : cut (':' :: ':' :: rest) = ([], some rest) := by
  simp [cut]

theorem cut_cons {c : Char} {rest : List Char} (h : ¬ (c = ':' ∧ rest.head? = some ':')) :
    cut (c :: rest) = (c :: (cut rest).1, (cut rest).2) := by
  rw [cut, if_neg h]

theorem cut_eq_self {cs : List Char} (h : ¬ [':', ':'] <:+: cs) : cut cs = (cs, none) := by
  induction cs with
  | nil => rfl
  | cons c rest ih =>
    have here : ¬ (c = ':' ∧ rest.head? = some ':') := by
      rintro ⟨rfl, hhead⟩
      obtain ⟨tail, rfl⟩ := List.head?_eq_some_iff.1 hhead
      exact h (List.prefix_append [':', ':'] tail).isInfix
    have later : ¬ [':', ':'] <:+: rest := fun hrest =>
      h (hrest.trans (List.suffix_cons c rest).isInfix)
    rw [cut_cons here, ih later]

/-- A separator is found, and none that stands behind it. -/
theorem cut_of_separator (pre post : List Char) : ∃ behind,
    (cut (pre ++ ':' :: ':' :: post)).2 = some behind ∧
      (cut (pre ++ ':' :: ':' :: post)).1.length ≤ pre.length := by
  induction pre with
  | nil => exact ⟨post, by simp⟩
  | cons c pre ih =>
    by_cases here : c = ':' ∧ (pre ++ ':' :: ':' :: post).head? = some ':'
    · refine ⟨(pre ++ ':' :: ':' :: post).tail, ?_⟩
      simp [cut, here]
    · obtain ⟨behind, hsome, hle⟩ := ih
      rw [List.cons_append, cut_cons here]
      exact ⟨behind, hsome, by simpa using hle⟩

/-- The two sides of a cut, with the separator between them, are the whole. -/
theorem eq_of_cut {cs behind : List Char} (h : (cut cs).2 = some behind) :
    cs = (cut cs).1 ++ ':' :: ':' :: behind := by
  induction cs with
  | nil => cases h
  | cons c rest ih =>
    by_cases here : c = ':' ∧ rest.head? = some ':'
    · obtain ⟨rfl, hhead⟩ := here
      obtain ⟨tail, rfl⟩ := List.head?_eq_some_iff.1 hhead
      simpa using h
    · rw [cut_cons here] at h ⊢
      exact congrArg (c :: ·) (ih h)

/-- What has no separator, and shares none with what follows it, stays whole in front of the cut. -/
theorem cut_append {pre cs : List Char} (free : ¬ [':', ':'] <:+: pre)
    (apart : pre.getLast? ≠ some ':') : cut (pre ++ cs) = (pre ++ (cut cs).1, (cut cs).2) := by
  induction pre with
  | nil => rfl
  | cons c rest ih =>
    have here : ¬ (c = ':' ∧ (rest ++ cs).head? = some ':') := by
      rintro ⟨rfl, hhead⟩
      cases rest with
      | nil => simp at apart
      | cons d rest =>
        obtain rfl : d = ':' := by simpa using hhead
        exact free (List.prefix_append [':', ':'] rest).isInfix
    have later : ¬ [':', ':'] <:+: rest := fun hrest =>
      free (hrest.trans (List.suffix_cons c rest).isInfix)
    have apartLater : rest.getLast? ≠ some ':' := by
      cases rest with
      | nil => simp
      | cons d rest => simpa using apart
    rw [List.cons_append, cut_cons here, ih later apartLater]
    rfl

/-! ### Cutting texts -/

theorem toList_cut (before behind : String) :
    (before ++ "::" ++ behind).toList = before.toList ++ ':' :: ':' :: behind.toList := by
  simp

theorem cut_eq_iff {text before behind : String} :
    cut text.toList = (before.toList, some behind.toList) ↔ Cuts text before behind := by
  constructor
  · intro h
    have whole := eq_of_cut (congrArg Prod.snd h)
    rw [h, ← toList_cut] at whole
    refine ⟨String.toList_inj.1 whole, ?_⟩
    intro pre post heq
    obtain ⟨_, -, hle⟩ := cut_of_separator pre.toList post.toList
    rw [← toList_cut, ← heq, h] at hle
    simpa [String.length_toList] using hle
  · rintro ⟨rfl, first⟩
    obtain ⟨later, hsome, hle⟩ := cut_of_separator before.toList behind.toList
    rw [← toList_cut] at hsome hle
    have whole := eq_of_cut hsome
    have hfirst := first (String.ofList (cut (before ++ "::" ++ behind).toList).1)
      (String.ofList later) (String.toList_inj.1 (by simpa using whole))
    -- No earlier cut is possible, and none that is later: both cut the same text in two.
    have length : before.toList.length = (cut (before ++ "::" ++ behind).toList).1.length :=
      Nat.le_antisymm (by simpa [String.length_toList] using hfirst) hle
    rw [toList_cut] at whole
    obtain ⟨hbefore, hbehind⟩ := List.append_inj whole (by rw [← toList_cut]; exact length)
    obtain rfl : behind.toList = later := by simpa using hbehind
    rw [← toList_cut] at hbefore
    exact Prod.ext hbefore.symm hsome

theorem cut_eq_none_iff {text : String} : (cut text.toList).2 = none ↔ ¬ Occurs text := by
  constructor
  · rintro h ⟨pre, post, heq⟩
    obtain ⟨behind, hsome, -⟩ := cut_of_separator pre post
    rw [show pre ++ ':' :: ':' :: post = text.toList by simpa using heq, h] at hsome
    cases hsome
  · intro h
    rw [cut_eq_self h]

/-- What stands before the first separator has none. -/
theorem Cuts.not_occurs {text before behind : String} (h : Cuts text before behind) :
    ¬ Occurs before := by
  rintro ⟨pre, post, heq⟩
  obtain ⟨_, -, hle⟩ := cut_of_separator pre (post ++ ':' :: ':' :: behind.toList)
  have whole : pre ++ ':' :: ':' :: (post ++ ':' :: ':' :: behind.toList) = text.toList := by
    rw [h.eq, toList_cut, ← heq]
    simp
  rw [whole, cut_eq_iff.2 h, ← heq] at hle
  simp only [List.length_append, List.length_cons, List.length_nil] at hle
  omega

/-- Cutting a text finds its stem. -/
theorem stem_eq_iff {text s : String} : stem text = s ↔ IsStem text s := by
  unfold stem IsStem
  cases h : (cut text.toList).2 with
  | none =>
    have free := cut_eq_none_iff.1 h
    have uncut (behind : String) : ¬ Cuts text s behind := fun hcut => by
      simp [cut_eq_iff.2 hcut] at h
    simp [cut_eq_self free, free, uncut, eq_comm]
  | some behind =>
    have occurs : Occurs text := ⟨(cut text.toList).1, behind, by simpa using (eq_of_cut h).symm⟩
    simp only [occurs, not_true_eq_false, false_and, or_false]
    constructor
    · rintro rfl
      exact ⟨String.ofList behind, cut_eq_iff.1 (Prod.ext (by simp) (by simpa using h))⟩
    · rintro ⟨_, hcut⟩
      simp [cut_eq_iff.2 hcut]

theorem split?_eq_some_iff_cut {text name : String} {slot : SlotName} :
    split? text = some (name, slot) ↔ name ≠ "" ∧ ∃ behind,
      cut text.toList = (name.toList, some behind) ∧ String.ofList (cut behind).1 = slot.text := by
  have hname (cs : List Char) : String.ofList cs = name ↔ cs = name.toList := by
    rw [← String.toList_inj, String.toList_ofList]
  have hslot (text : String) : SlotName.mk text = slot ↔ text = slot.text := by
    cases slot
    simp
  unfold split?
  rcases h : cut text.toList with ⟨_ | ⟨c, rest⟩, _ | behind⟩
  case cons.some =>
    simp only [Option.some.injEq, Prod.mk.injEq, hname, hslot]
    constructor
    · rintro ⟨heq, hs⟩
      refine ⟨?_, behind, ⟨heq, rfl⟩, hs⟩
      rintro rfl
      cases heq
    · rintro ⟨-, _, ⟨heq, rfl⟩, hs⟩
      exact ⟨heq, hs⟩
  all_goals simp +contextual

/-- A text is split exactly when it names a slot: into the name and the slot. -/
theorem split?_eq_some_iff {text name : String} {slot : SlotName} :
    split? text = some (name, slot) ↔ Names text name slot := by
  rw [split?_eq_some_iff_cut]
  constructor
  · rintro ⟨hname, behind, hcut, hslot⟩
    refine ⟨hname, String.ofList behind, cut_eq_iff.1 (by simpa using hcut), ?_⟩
    exact stem_eq_iff.1 (by simpa [stem] using hslot)
  · rintro ⟨hname, behind, hcut, hstem⟩
    exact ⟨hname, behind.toList, cut_eq_iff.2 hcut, stem_eq_iff.2 hstem⟩

theorem split?_eq_none_iff {text : String} :
    split? text = none ↔ ∀ name slot, ¬ Names text name slot := by
  simp only [Option.eq_none_iff_forall_ne_some, Prod.forall, ne_eq, split?_eq_some_iff]

theorem Names.occurs {text name : String} {slot : SlotName} (h : Names text name slot) :
    Occurs text := by
  obtain ⟨-, behind, hcut, -⟩ := h
  exact ⟨name.toList, behind.toList, by simp [hcut.eq]⟩

theorem IsStem.isPrefix {text stem : String} (h : IsStem text stem) :
    stem.toList <+: text.toList := by
  rcases h with ⟨behind, hcut⟩ | ⟨-, rfl⟩
  · rw [hcut.eq, toList_cut]
    exact List.prefix_append _ _
  · exact List.prefix_rfl

theorem Names.name_isPrefix {text name : String} {slot : SlotName} (h : Names text name slot) :
    name.toList <+: text.toList := by
  obtain ⟨-, behind, hcut, -⟩ := h
  rw [hcut.eq, toList_cut]
  exact List.prefix_append _ _

theorem Names.slot_isInfix {text name : String} {slot : SlotName} (h : Names text name slot) :
    slot.text.toList <:+: text.toList := by
  obtain ⟨-, behind, hcut, hstem⟩ := h
  refine hstem.isPrefix.isInfix.trans ⟨name.toList ++ [':', ':'], [], ?_⟩
  simp [hcut.eq]

theorem split?_eq_none {text : String} (h : ¬ Occurs text) : split? text = none :=
  split?_eq_none_iff.2 fun _ _ names => h names.occurs

/-- Behind a text without a separator a slot can be written: it is found again, and so is the text
before it. The text must not end in half a separator. -/
theorem names_append {name slot : String} (nonempty : name ≠ "") (free : ¬ Occurs name)
    (apart : name.toList.getLast? ≠ some ':') (single : ¬ Occurs slot) :
    Names (name ++ "::" ++ slot) name ⟨slot⟩ := by
  refine ⟨nonempty, slot, cut_eq_iff.1 ?_, .inr ⟨single, rfl⟩⟩
  simp [cut_append free apart]

/-- What has no separator, and shares none with what follows it, belongs to the stem. -/
theorem stem_append {x y : String} (free : ¬ Occurs x) (apart : x.toList.getLast? ≠ some ':') :
    stem (x ++ y) = x ++ stem y := by
  simp [stem, cut_append free apart]

theorem stem_suffixed {name slot : String} (free : ¬ Occurs name)
    (apart : name.toList.getLast? ≠ some ':') : stem (name ++ "::" ++ slot) = name := by
  rw [String.append_assoc, stem_append free apart]
  simp [stem]

theorem Names.stem_eq {text name : String} {slot : SlotName} (h : Names text name slot) :
    stem text = name := by
  obtain ⟨-, behind, hcut, -⟩ := h
  exact stem_eq_iff.2 (.inl ⟨behind, hcut⟩)

/-! ### Split and stem -/

theorem exists_cuts {text : String} (h : Occurs text) :
    ∃ before behind, Cuts text before behind := by
  cases hcut : (cut text.toList).2 with
  | none => exact absurd h (cut_eq_none_iff.1 hcut)
  | some behind =>
    refine ⟨stem text, String.ofList behind, cut_eq_iff.1 ?_⟩
    apply Prod.ext
    · simp [stem]
    · simpa using hcut

/-- Nothing stands before a separator that opens the text, so that it is the first one. -/
theorem cuts_opening (behind : String) : Cuts ("::" ++ behind) "" behind :=
  ⟨by simp, fun _ _ _ => Nat.zero_le _⟩

/-- There is one first separator. -/
theorem Cuts.before_unique {text before before' behind behind' : String}
    (h : Cuts text before behind) (h' : Cuts text before' behind') : before = before' := by
  have sides := (cut_eq_iff.2 h).symm.trans (cut_eq_iff.2 h')
  exact String.toList_inj.1 (Prod.mk.inj sides).1

theorem Cuts.names {text name behind : String} (h : Cuts text name behind) (nonempty : name ≠ "") :
    Names text name ⟨stem behind⟩ :=
  ⟨nonempty, behind, h, stem_eq_iff.1 rfl⟩

theorem IsStem.not_occurs {text stem : String} (h : IsStem text stem) : ¬ Occurs stem := by
  rcases h with ⟨behind, hcut⟩ | ⟨free, rfl⟩
  · exact hcut.not_occurs
  · exact free

theorem stem_eq_self {text : String} (h : ¬ Occurs text) : stem text = text :=
  stem_eq_iff.2 (.inr ⟨h, rfl⟩)

theorem stem_opening (behind : String) : stem ("::" ++ behind) = "" :=
  stem_eq_iff.2 (.inl ⟨behind, cuts_opening behind⟩)

theorem split?_eq_none_iff_opening {text : String} :
    split? text = none ↔ ¬ Occurs text ∨ ∃ behind, text = "::" ++ behind := by
  rw [split?_eq_none_iff]
  constructor
  · intro unnamed
    by_cases occurs : Occurs text
    · obtain ⟨name, behind, hcut⟩ := exists_cuts occurs
      by_cases empty : name = ""
      · exact .inr ⟨behind, by simpa [empty] using hcut.eq⟩
      · exact absurd (hcut.names empty) (unnamed _ _)
    · exact .inl occurs
  · intro without name slot names
    rcases without with free | ⟨behind, rfl⟩
    · exact free names.occurs
    · obtain ⟨nonempty, _, hcut, -⟩ := names
      exact nonempty (hcut.before_unique (cuts_opening behind))

/-- The split of a text and its stem agree on the first separator. A text is left whole by both when
there is none; when one opens the text, the split leaves it whole and the stem is empty. Otherwise
both end the name there, and the slot ends at the next separator or with the text. -/
theorem split?_stem_agree (text : String) :
    (split? text = none ↔ ¬ Occurs text ∨ ∃ behind, text = "::" ++ behind) ∧
    (¬ Occurs text → stem text = text) ∧
    (∀ behind, text = "::" ++ behind → stem text = "") ∧
    ∀ name slot, split? text = some (name, slot) →
      name ≠ "" ∧ stem text = name ∧ ¬ Occurs slot.text ∧ ∃ behind, Cuts text name behind ∧
        (behind = slot.text ∨ ∃ rest, Cuts behind slot.text rest) := by
  refine ⟨split?_eq_none_iff_opening, stem_eq_self, ?_, ?_⟩
  · intro behind opening
    rw [opening, stem_opening]
  · intro name slot split
    have names := split?_eq_some_iff.1 split
    have agrees : stem text = name := names.stem_eq
    obtain ⟨nonempty, behind, hcut, hslot⟩ := names
    refine ⟨nonempty, agrees, hslot.not_occurs, behind, hcut, ?_⟩
    rcases hslot with ends | ⟨-, whole⟩
    · exact .inr ends
    · exact .inl whole.symm

/-- The texts `a:b`, `:::b` and `a:::b::::c`: in the last one separators overlap. -/
theorem split?_stem_agree_colons :
    (¬ Occurs "a:b" ∧ stem "a:b" = "a:b") ∧ stem ":::b" = "" ∧
    split? "a:::b::::c" = some ("a", ⟨":b"⟩) ∧ stem "a:::b::::c" = "a" ∧ ¬ Occurs ":b" ∧
      ∃ behind, Cuts "a:::b::::c" "a" behind ∧ (behind = ":b" ∨ ∃ rest, Cuts behind ":b" rest) := by
  have free : ¬ Occurs "a:b" := cut_eq_none_iff.1 (by decide)
  have split : split? "a:::b::::c" = some ("a", ⟨":b"⟩) := by decide
  obtain ⟨-, whole, -⟩ := split?_stem_agree "a:b"
  obtain ⟨-, -, opening, -⟩ := split?_stem_agree ":::b"
  obtain ⟨-, -, -, named⟩ := split?_stem_agree "a:::b::::c"
  obtain ⟨-, agrees⟩ := named "a" ⟨":b"⟩ split
  exact ⟨⟨free, whole free⟩, opening ":b" (by decide), split, agrees⟩

end TemplateTree.SlotSuffix
