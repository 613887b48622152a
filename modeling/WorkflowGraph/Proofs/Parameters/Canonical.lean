import WorkflowGraph.Draft.Node
import WorkflowGraph.Proofs.Text.Blank
/-
Canonical type tags. The canonical form of a tag is canonical itself, and so is every type that the standard resolver
can name.

- `isCanonical_canonicalType`, `canonicalType_of_isCanonical`: the canonical form.
- `isCanonical_standard`: the types of the resolver.
-/
namespace WorkflowGraph

namespace Parameters

/-- a tag without blanks around it that has a package and is not an alias -/
structure IsCanonical (tag : String) : Prop where
  filled : tag ≠ ""
  stripped : Text.strip tag = tag
  packaged : '.' ∈ tag.toList
  proper : ∀ short, aliases.lookup (Catalog.shortType tag) = some short →
    "n8n-nodes-".toList.isPrefixOf (packageOf tag).toList = false

/-- a canonical tag is its own canonical form -/
theorem canonicalType_of_isCanonical {tag : String} (h : IsCanonical tag) : canonicalType tag = tag := by
  have hfilled : tag.isEmpty = false := by simpa using h.filled
  have hpackaged : tag.toList.contains '.' = true := by simpa using h.packaged
  unfold canonicalType
  simp only [h.stripped, hfilled, hpackaged, Bool.false_eq_true, if_false, if_true]
  cases hlookup : aliases.lookup (Catalog.shortType tag) with
  | none => rfl
  | some short =>
    have hproper := h.proper short hlookup
    simp only [hproper, Bool.false_eq_true, if_false]

theorem IsCanonical.not_blank {tag : String} (h : IsCanonical tag) : Text.isBlankText tag = false := by
  rw [← h.stripped]
  apply Text.isBlankText_strip
  rw [h.stripped]
  simpa using h.filled

/-! ## Types of the common package -/

/-- the characters of a tag of the common package: letters and digits after the package, and no alias -/
def isPlain (tag : List Char) : Bool :=
  let short := tag.drop Catalog.package.length
  Catalog.package.toList.isPrefixOf tag && !short.isEmpty && short.all Char.isAlphanum &&
    (aliases.lookup (String.ofList short)).isNone

theorem isCanonical_of_isPlain {tag : String} (h : isPlain tag.toList = true) : IsCanonical tag := by
  simp only [isPlain, Bool.and_eq_true, Bool.not_eq_true', Option.isNone_iff_eq_none] at h
  obtain ⟨⟨⟨hpackage, hshort⟩, hletters⟩, hproper⟩ := h
  obtain ⟨short, hlist⟩ := List.isPrefixOf_iff_prefix.1 hpackage
  have hdrop : tag.toList.drop Catalog.package.length = short := by
    rw [← hlist, ← String.length_toList, List.drop_left]
  rw [hdrop] at hshort hletters hproper
  rw [List.all_eq_true] at hletters
  have hne : short ≠ [] := by
    rintro rfl
    cases hshort
  have hlast : ∀ c ∈ tag.toList.getLast?, c.isAlphanum = true := by
    intro c hc
    rw [← hlist, List.getLast?_append_of_ne_nil _ hne] at hc
    exact hletters c (List.mem_of_mem_getLast? hc)
  have hfirst : tag.toList.head? = some 'n' := by
    rw [← hlist]
    rfl
  constructor
  case filled =>
    intro hempty
    rw [hempty] at hfirst
    cases hfirst
  case stripped =>
    rw [Text.strip_eq_self_iff, hfirst]
    refine ⟨?_, fun c hc => Text.isBlank_of_isAlphanum (hlast c hc)⟩
    intro c hc
    cases hc
    decide
  case packaged =>
    rw [← hlist]
    exact List.mem_append_left _ (by decide)
  case proper =>
    intro other hother
    have htail : Catalog.shortType tag = String.ofList short := by
      have hpoint : Catalog.package.toList.reverse.takeWhile (· != '.') = [] := by decide
      rw [Catalog.shortType, ← hlist, Text.afterLast, List.reverse_append, List.takeWhile_append_of_pos]
      · rw [hpoint, List.append_nil, List.reverse_reverse]
      · intro c hc
        have hc' := hletters c (List.mem_reverse.1 hc)
        rw [bne_iff_ne]
        rintro rfl
        cases hc'
    rw [htail, hproper] at hother
    cases hother

theorem isPlain_aliases : (aliases.all fun e => isPlain (Catalog.fullTag e.2).toList) = true := by decide +kernel

theorem isPlain_of_alias {other short : String} (h : (other, short) ∈ aliases) :
    isPlain (Catalog.fullTag short).toList = true := by
  have hall := isPlain_aliases
  rw [List.all_eq_true] at hall
  exact hall (other, short) h

/-! ## The canonical form -/

theorem strip_package : Text.strip Catalog.package = Catalog.package := by decide +kernel

/-- a bare name gets the common package -/
theorem packaged_stripped {given : String} (h : Text.isBlankText given = false) {tag : String}
    (htag : tag = if (Text.strip given).toList.contains '.' then Text.strip given
      else Catalog.fullTag (Text.strip given)) : tag ≠ "" ∧ Text.strip tag = tag ∧ '.' ∈ tag.toList := by
  have hne := Text.strip_ne_empty h
  rw [htag]
  split
  · rename_i hpoint
    rw [List.contains_iff_mem] at hpoint
    exact ⟨hne, Text.strip_strip given, hpoint⟩
  · have hstrip := Text.strip_append strip_package (by decide)
      (Text.strip_strip given) hne ""
    rw [String.append_empty] at hstrip
    refine ⟨?_, hstrip, ?_⟩
    · intro hempty
      have hlist := congrArg String.toList hempty
      simp [Catalog.fullTag, Catalog.package] at hlist
    · rw [Catalog.fullTag, String.toList_append]
      exact List.mem_append_left _ (by decide)

/-- the canonical form of a tag that is not blank is canonical -/
theorem isCanonical_canonicalType {given : String} (h : Text.isBlankText given = false) :
    IsCanonical (canonicalType given) := by
  have hempty : (Text.strip given).isEmpty = false := by simpa using Text.strip_ne_empty h
  obtain ⟨tag, htag⟩ : ∃ tag, tag = if (Text.strip given).toList.contains '.' then Text.strip given
      else Catalog.fullTag (Text.strip given) := ⟨_, rfl⟩
  obtain ⟨hfilled, hstripped, hpackaged⟩ := packaged_stripped h htag
  unfold canonicalType
  simp only [hempty, Bool.false_eq_true, if_false, ← htag]
  cases hlookup : aliases.lookup (Catalog.shortType tag) with
  | none =>
    refine ⟨hfilled, hstripped, hpackaged, ?_⟩
    intro short hshort
    rw [hlookup] at hshort
    cases hshort
  | some short =>
    simp only
    split
    · obtain ⟨before, after, haliases, -⟩ := List.lookup_eq_some_iff.1 hlookup
      apply isCanonical_of_isPlain
      apply isPlain_of_alias
      rw [haliases]
      exact List.mem_append_right _ List.mem_cons_self
    · rename_i hother
      refine ⟨hfilled, hstripped, hpackaged, ?_⟩
      intro short' _
      rw [Bool.not_eq_true] at hother
      exact hother

/-! ## Types of the resolver -/

theorem isPlain_entries : (Catalog.entries.all fun e => isPlain e.type.toList) = true := by decide +kernel

theorem isPlain_concepts : (Concept.all.all fun c => isPlain c.type.toList) = true := by decide +kernel

theorem isPlain_overrides : (Resolver.overrides.all fun o => isPlain o.2.toList) = true := by decide +kernel

theorem isPlain_default : isPlain Resolver.defaultNodeType.toList = true := by decide +kernel

/-- the best entry is one of those compared -/
theorem mem_of_best (lower : String) (entries : List Catalog.Entry) {e : Catalog.Entry} :
    e ∈ (entries.foldl (fun best e => if best.2 < e.score lower then (some e, e.score lower) else best)
      ((none : Option Catalog.Entry), 0)).1 → e ∈ entries := by
  have run : ∀ (later : List Catalog.Entry) (best : Option Catalog.Entry × Nat),
      (∀ b ∈ best.1, b ∈ entries) → (∀ e ∈ later, e ∈ entries) →
      ∀ b ∈ (later.foldl (fun best e => if best.2 < e.score lower then (some e, e.score lower) else best) best).1,
        b ∈ entries := by
    intro later
    induction later with
    | nil => exact fun _ hbest _ => hbest
    | cons e later ih =>
      intro best hbest hlater
      rw [List.forall_mem_cons] at hlater
      apply ih _ _ hlater.2
      dsimp only
      split
      · intro b hb
        rw [Option.mem_some_iff] at hb
        rw [← hb]
        exact hlater.1
      · exact hbest
  exact run entries (none, 0) (by simp) (fun _ he => he) e

/-- a candidate has the type of a concept -/
theorem isPlain_candidate {text : String} {c : Resolver.Candidate} (h : c ∈ Resolver.candidates text) :
    isPlain c.type.toList = true := by
  rw [Resolver.candidates, List.mem_mergeSort, List.mem_filterMap] at h
  obtain ⟨concept, hconcept, hc⟩ := h
  have hplain := isPlain_concepts
  rw [List.all_eq_true] at hplain
  unfold Resolver.candidate? at hc
  dsimp only at hc
  split at hc
  · cases hc
  · rw [Option.some.injEq] at hc
    rw [← hc]
    exact hplain concept hconcept

theorem isPlain_semantic {minConfidence : Numeric} {text : String} {r : Resolution × Trace}
    (h : Resolver.semantic? minConfidence text (Resolver.candidates text) = some r) :
    isPlain r.1.nodeType.toList = true := by
  cases hfound : Resolver.candidates text with
  | nil =>
    rw [hfound] at h
    cases h
  | cons best others =>
    have hbest : best ∈ Resolver.candidates text := by
      rw [hfound]
      exact List.mem_cons_self
    rw [hfound] at h
    unfold Resolver.semantic? at h
    dsimp only at h
    split at h
    · rw [Option.some.injEq] at h
      rw [← h]
      exact isPlain_candidate hbest
    · cases h

theorem isPlain_catalog {text : String} {alternatives : List String} {r : Resolution × Trace}
    (h : Resolver.catalog? text alternatives = some r) : isPlain r.1.nodeType.toList = true := by
  unfold Resolver.catalog? at h
  split at h
  · cases h
  · rename_i e score hbest
    rw [Option.some.injEq] at h
    rw [← h]
    have hmem : e ∈ Catalog.entries := by
      apply mem_of_best (Text.lower text)
      rw [Catalog.bestEntry] at hbest
      rw [hbest]
      exact Option.mem_some_self e
    have hplain := isPlain_entries
    rw [List.all_eq_true] at hplain
    exact hplain e hmem

theorem isPlain_override {text : String} {alternatives : List String} {r : Resolution × Trace}
    (h : Resolver.override? text alternatives = some r) : isPlain r.1.nodeType.toList = true := by
  unfold Resolver.override? at h
  rw [Option.map_eq_some_iff] at h
  obtain ⟨o, ho, hr⟩ := h
  rw [← hr]
  have hplain := isPlain_overrides
  rw [List.all_eq_true] at hplain
  exact hplain o (List.mem_of_find?_eq_some ho)

/-- **The standard resolver names canonical types.** -/
theorem isCanonical_standard (text : String) : IsCanonical (Resolver.standard text).1.nodeType := by
  apply isCanonical_of_isPlain
  unfold Resolver.standard Resolver.resolve
  dsimp only
  split
  · exact isPlain_default
  · split
    · rename_i r hr
      exact isPlain_semantic hr
    · split
      · rename_i r hr
        exact isPlain_catalog hr
      · split
        · rename_i r hr
          exact isPlain_override hr
        · exact isPlain_default

end Parameters

end WorkflowGraph
