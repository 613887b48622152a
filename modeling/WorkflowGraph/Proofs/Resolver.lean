import Mathlib.Tactic
import WorkflowGraph.Proofs.Trace
import WorkflowGraph.Resolver.Basic
/-
Alternatives of a resolution. The types that fit a text are ranked by meaning, each of them once. A type chosen by
meaning is the first of the ranking and its alternatives are the three after it. A type chosen in any other way has the
first three of the ranking as alternatives, and may itself be one of them.

- `nodup_ranking`: no type is ranked twice.
- `resolve_decides`: the tier that answers; what it decides and where its alternatives stand in the ranking.
- `resolve_alternatives`: how many they are, that they are distinct, and when the chosen type is one of them.
- `resolve_repeated`: a text whose type is its own alternative.
-/
namespace WorkflowGraph

namespace Resolver

open Text

/-- the types that fit a text by meaning, best first; a blank text has none -/
def ranking (text : String) : List String := if isBlankText text then [] else (candidates text).map (·.type)

variable {minConfidence : Numeric} {defaultType text lower : String} {c : Concept} {found : List Candidate}
  {best : List String} {r : Resolution × Trace}

/-! ## The ranking -/

theorem type_of_candidate? {d : Candidate} (h : candidate? lower c = some d) : d.type = c.type := by
  simp only [candidate?] at h
  split at h
  · cases h
  · cases h
    rfl

theorem nodup_candidates (lower : String) : ((Concept.all.filterMap (candidate? lower)).map (·.type)).Nodup := by
  have hall : Concept.all.Pairwise fun c c' => c.type ≠ c'.type := by decide
  refine List.pairwise_map.2 (hall.filterMap _ ?_)
  intro c c' hne d hd d' hd'
  rwa [type_of_candidate? hd, type_of_candidate? hd']

/-- no type is ranked twice -/
theorem nodup_ranking (text : String) : (ranking text).Nodup := by
  unfold ranking
  split
  · exact List.nodup_nil
  · exact ((List.mergeSort_perm _ _).map _).nodup_iff.2 (nodup_candidates _)

/-! ## Tiers -/

/-- which tier answers for a text; all but the first give the first three of the ranking as alternatives -/
inductive Decides (minConfidence : Numeric) (defaultType text : String) : Resolution × Trace → Prop
  | semantic (found : List Candidate) (r : Resolution × Trace) (hranking : ranking text = found.map Candidate.type)
      (h : semantic? minConfidence text found = some r) : Decides minConfidence defaultType text r
  | catalog (r : Resolution × Trace) (h : catalog? text ((ranking text).take 3) = some r) :
      Decides minConfidence defaultType text r
  | override (r : Resolution × Trace) (h : override? text ((ranking text).take 3) = some r) :
      Decides minConfidence defaultType text r
  | default (reasoning : String) :
      Decides minConfidence defaultType text (fallback defaultType text reasoning ((ranking text).take 3))

theorem resolve_decides (h : resolve minConfidence defaultType text = r) : Decides minConfidence defaultType text r := by
  by_cases hblank : isBlankText text = true
  · have hranking : ranking text = [] := if_pos hblank
    rw [resolve, if_pos hblank] at h
    have hdefault : Decides minConfidence defaultType text (fallback defaultType text
        "Empty description, using generic processing node" ((ranking text).take 3)) := .default _
    rw [hranking] at hdefault
    exact h ▸ hdefault
  · have hranking : ranking text = (candidates text).map Candidate.type := if_neg hblank
    rw [resolve, if_neg hblank] at h
    -- the tiers are told apart on any candidates, so that none of them is computed
    generalize candidates text = found at h hranking
    dsimp only at h
    generalize hbest : (found.take 3).map Candidate.type = best at h
    obtain rfl : best = (ranking text).take 3 := by rw [← hbest, hranking, List.map_take]
    cases hsemantic : semantic? minConfidence text found with
    | some r' =>
      rw [hsemantic] at h
      cases h
      exact .semantic found _ hranking hsemantic
    | none =>
      rw [hsemantic] at h
      cases hcatalog : catalog? text ((ranking text).take 3) with
      | some r' =>
        rw [hcatalog] at h
        cases h
        exact .catalog _ hcatalog
      | none =>
        rw [hcatalog] at h
        cases hoverride : override? text ((ranking text).take 3) with
        | some r' =>
          rw [hoverride] at h
          cases h
          exact .override _ hoverride
        | none =>
          rw [hoverride] at h
          cases h
          exact .default _

theorem of_catalog? (h : catalog? text best = some r) :
    r.1.source = .catalog ∧ r.1.alternatives = best ∧ ∃ detail, r.2 = decided "catalog" text r.1.nodeType detail := by
  unfold catalog? at h
  split at h
  · cases h
  · cases h
    exact ⟨rfl, rfl, _, rfl⟩

theorem of_override? (h : override? text best = some r) :
    r.1.source = .override ∧ r.1.alternatives = best ∧
      ∃ detail, r.2 = decided "override" text r.1.nodeType detail := by
  obtain ⟨o, -, rfl⟩ := Option.map_eq_some_iff.1 h
  exact ⟨rfl, rfl, _, rfl⟩

/-- a type chosen by meaning is the first of the candidates, and its alternatives are the next three -/
theorem of_semantic? (h : semantic? minConfidence text found = some r) :
    r.1.source = .semantic ∧
      (∃ others, found.map Candidate.type = r.1.nodeType :: others ∧ r.1.alternatives = others.take 3) ∧
        ∃ detail, r.2 = decided "semantic" text r.1.nodeType detail := by
  cases found with
  | nil => cases h
  | cons best others =>
    simp only [semantic?] at h
    split at h
    · cases h
      exact ⟨rfl, ⟨others.map Candidate.type, rfl, List.map_take⟩, _, rfl⟩
    · cases h

/-- the rules for the tiers -/
def tierRules : List String := ["semantic", "catalog", "override", "default"]

/-- a resolution is decided under the rule of its tier -/
theorem Decides.under (h : Decides minConfidence defaultType text r) : r.2.Under tierRules := by
  cases h with
  | semantic found r hranking h =>
    obtain ⟨-, -, detail, htrace⟩ := of_semantic? h
    exact htrace ▸ Trace.under_event (by decide)
  | catalog r h =>
    obtain ⟨-, -, detail, htrace⟩ := of_catalog? h
    exact htrace ▸ Trace.under_event (by decide)
  | override r h =>
    obtain ⟨-, -, detail, htrace⟩ := of_override? h
    exact htrace ▸ Trace.under_event (by decide)
  | default reasoning => exact Trace.under_event (by decide)

/-- where the alternatives stand in the ranking -/
theorem Decides.ranked (h : Decides minConfidence defaultType text r) :
    (r.1.source = .semantic ∧ ∃ others, ranking text = r.1.nodeType :: others ∧ r.1.alternatives = others.take 3) ∨
      (r.1.source ≠ .semantic ∧ r.1.alternatives = (ranking text).take 3) := by
  cases h with
  | semantic found r hranking h =>
    obtain ⟨hsource, hothers, -⟩ := of_semantic? h
    exact Or.inl ⟨hsource, hranking ▸ hothers⟩
  | catalog r h =>
    obtain ⟨hsource, halternatives, -⟩ := of_catalog? h
    exact Or.inr ⟨by rw [hsource]; decide, halternatives⟩
  | override r h =>
    obtain ⟨hsource, halternatives, -⟩ := of_override? h
    exact Or.inr ⟨by rw [hsource]; decide, halternatives⟩
  | default reasoning => exact Or.inr ⟨MatchSource.noConfusion, rfl⟩

/-- **Alternatives of a resolution.** They are at most three and distinct. The chosen type is one of them exactly when
it was not chosen by meaning and yet is among the first three of the ranking. -/
theorem resolve_alternatives (minConfidence : Numeric) (defaultType text : String) :
    let r := (resolve minConfidence defaultType text).1
    r.alternatives.length ≤ 3 ∧ r.alternatives.Nodup ∧
      (r.nodeType ∈ r.alternatives ↔ r.source ≠ .semantic ∧ r.nodeType ∈ (ranking text).take 3) := by
  intro r
  have hnodup := nodup_ranking text
  rcases (resolve_decides (r := resolve minConfidence defaultType text) rfl).ranked with
    ⟨hsource, others, hranking, halternatives⟩ | ⟨hsource, halternatives⟩
  · rw [hranking, List.nodup_cons] at hnodup
    rw [halternatives]
    refine ⟨List.length_take_le 3 others, hnodup.2.sublist (List.take_sublist 3 others), ?_⟩
    exact iff_of_false (fun h => hnodup.1 (List.mem_of_mem_take h)) fun h => h.1 hsource
  · rw [halternatives]
    refine ⟨List.length_take_le 3 _, hnodup.sublist (List.take_sublist 3 _), ?_⟩
    exact ⟨fun h => ⟨hsource, h⟩, fun h => h.2⟩

/-! ## A type that is its own alternative -/

/-- the score of a candidate reaches the least confidence -/
def reaches (minConfidence : Numeric) (d : Candidate) : Bool := minConfidence.le (.double (clamp (d.score.divNat 100)))

/-- a type is not chosen by meaning when no candidate reaches the least confidence -/
theorem semantic?_eq_none (h : ∀ d ∈ found, reaches minConfidence d = false) :
    semantic? minConfidence text found = none := by
  cases found with
  | nil => rfl
  | cons best others =>
    have hbest := h best List.mem_cons_self
    rw [reaches] at hbest
    simp [semantic?, hbest]

/-- a type is chosen from the catalog when none is chosen by meaning -/
theorem resolve_of_catalog {tag : String} (hblank : isBlankText text = false)
    (hmeaning : ∀ d ∈ candidates text, reaches minConfidence d = false)
    (htag : (Catalog.bestEntry text).1.map (·.type) = some tag) (h : resolve minConfidence defaultType text = r) :
    r.1.nodeType = tag ∧ r.1.confidence = .double catalogConfidence ∧ r.1.alternatives = (ranking text).take 3 := by
  have hranking : ranking text = (candidates text).map (·.type) := if_neg (by simp [hblank])
  rw [resolve, if_neg (by simp [hblank])] at h
  generalize candidates text = found at h hranking hmeaning
  dsimp only at h
  rw [semantic?_eq_none hmeaning, catalog?] at h
  generalize Catalog.bestEntry text = best at h htag
  obtain ⟨_ | e, score⟩ := best
  · cases htag
  · cases htag
    cases h
    exact ⟨rfl, rfl, by rw [hranking, List.map_take]⟩

theorem candidates_mqtt : (Concept.all.filterMap (candidate? "mqtt")).map
      (fun d => (d.type, reaches (.double Resolution.doubtful) d)) =
    [(Catalog.fullTag "mqtt", false), (Catalog.fullTag "httpRequest", false)] := by
  decide +kernel

/-- a word for which the catalog has a type, while its meaning gives the same type with too little confidence -/
theorem standard_mqtt : (standard "mqtt").1.nodeType = Catalog.fullTag "mqtt" ∧
    (standard "mqtt").1.confidence = .double catalogConfidence ∧
      (standard "mqtt").1.alternatives.Perm [Catalog.fullTag "mqtt", Catalog.fullTag "httpRequest"] := by
  have hperm : ((candidates "mqtt").map fun d => (d.type, reaches (.double Resolution.doubtful) d)).Perm
      [(Catalog.fullTag "mqtt", false), (Catalog.fullTag "httpRequest", false)] := by
    have hlower : lower "mqtt" = "mqtt" := by decide +kernel
    have hsorted : (candidates "mqtt").Perm (Concept.all.filterMap (candidate? "mqtt")) :=
      hlower ▸ List.mergeSort_perm _ _
    exact (hsorted.map _).trans (List.Perm.of_eq candidates_mqtt)
  have hmeaning : ∀ d ∈ candidates "mqtt", reaches (.double Resolution.doubtful) d = false := by
    intro d hd
    have hmem := hperm.mem_iff.1 (List.mem_map_of_mem hd)
    simp only [List.mem_cons, List.not_mem_nil, or_false, Prod.mk.injEq] at hmem
    rcases hmem with ⟨-, h⟩ | ⟨-, h⟩
    · exact h
    · exact h
  have hranking : (ranking "mqtt").Perm [Catalog.fullTag "mqtt", Catalog.fullTag "httpRequest"] := by
    have htypes := hperm.map Prod.fst
    rwa [List.map_map] at htypes
  have hcatalog : (Catalog.bestEntry "mqtt").1.map (·.type) = some (Catalog.fullTag "mqtt") := by decide +kernel
  have hresolve : resolve (.double Resolution.doubtful) defaultNodeType "mqtt" = standard "mqtt" := rfl
  obtain ⟨htype, hconfidence, halternatives⟩ := resolve_of_catalog (by decide) hmeaning hcatalog hresolve
  have hfew : (ranking "mqtt").length ≤ 3 := hranking.length_eq.le.trans (by decide)
  have hall := halternatives.trans (List.take_of_length_le hfew)
  exact ⟨htype, hconfidence, (List.Perm.of_eq hall).trans hranking⟩

/-- **A type may be its own alternative**: the one that the catalog has for a word is also the first by meaning. -/
theorem resolve_repeated : (standard "mqtt").1.nodeType ∈ (standard "mqtt").1.alternatives := by
  obtain ⟨htype, -, halternatives⟩ := standard_mqtt
  rw [htype]
  exact halternatives.mem_iff.2 List.mem_cons_self

end Resolver

end WorkflowGraph
