import Mathlib.Data.List.Duplicate
import WorkflowGraph.Proofs.Draft.Meaning
/-
Edges that stand twice on a port of a document. Two edges of a draft that mean the same are one edge when their sources
come together after their targets did, since ports are joined with care, and stand twice otherwise.

- `duplicate_rename_iff`: what stands twice once a name is changed.
- `simple_keyed_iff`: when no edge stands twice in a document.
- `repeats_by_renaming`: the same for any run of changes, and for the documents that are built.
- `build_repeats_edge`: a draft whose document has an edge twice.
-/
namespace WorkflowGraph

/-! ## Edges that stand twice -/

/-- of two different members of a list one stands before the other -/
theorem sublist_pair_of_mem {α : Type} {l : List α} {a b : α} (ha : a ∈ l) (hb : b ∈ l) (hne : a ≠ b) :
    [a, b].Sublist l ∨ [b, a].Sublist l := by
  obtain ⟨before, later, rfl⟩ := List.append_of_mem ha
  rcases List.mem_append.1 hb with hb | hb
  · exact Or.inr ((List.singleton_sublist.2 hb).append (List.singleton_sublist.2 List.mem_cons_self))
  · have hlater := (List.mem_cons.1 hb).resolve_left hne.symm
    exact Or.inl (((List.singleton_sublist.2 hlater).cons_cons a).trans (List.sublist_append_right _ _))

/-- what stands twice among images is the image of what stood twice, or of two different things -/
theorem duplicate_map_iff {α β : Type} {f : α → β} {l : List α} {b : β} :
    (l.map f).Duplicate b ↔
      (∃ a, f a = b ∧ l.Duplicate a) ∨ ∃ a ∈ l, ∃ a' ∈ l, a ≠ a' ∧ f a = b ∧ f a' = b := by
  have htwice : ∀ {a a'}, [a, a'].Sublist l → f a = b → f a' = b → (l.map f).Duplicate b := by
    intro a a' hsub ha ha'
    rw [List.duplicate_iff_sublist]
    simpa [ha, ha'] using hsub.map f
  constructor
  · intro h
    rw [List.duplicate_iff_sublist, List.sublist_map_iff] at h
    obtain ⟨pair, hsub, hpair⟩ := h
    obtain ⟨a, rest, rfl, ha, hrest⟩ := List.map_eq_cons_iff.1 hpair.symm
    obtain ⟨a', rest, rfl, ha', hnil⟩ := List.map_eq_cons_iff.1 hrest
    rw [List.map_eq_nil_iff.1 hnil] at hsub
    by_cases hsame : a = a'
    · subst hsame
      exact Or.inl ⟨a, ha, List.duplicate_iff_sublist.2 hsub⟩
    · exact Or.inr ⟨a, hsub.subset (by simp), a', hsub.subset (by simp), hsame, ha, ha'⟩
  · rintro (⟨a, ha, hdup⟩ | ⟨a, hmem, a', hmem', hne, ha, ha'⟩)
    · exact htwice (List.duplicate_iff_sublist.1 hdup) ha ha
    · rcases sublist_pair_of_mem hmem hmem' hne with hsub | hsub
      · exact htwice hsub ha ha'
      · exact htwice hsub ha' ha

namespace Connections

theorem duplicate_insertEdge {e e' : Edge} {p : Port} : (insertEdge e p).Duplicate e' ↔ p.Duplicate e' := by
  unfold insertEdge
  split
  · rfl
  · rename_i hnew
    rw [List.duplicate_iff_two_le_count, List.duplicate_iff_two_le_count, List.count_append, List.count_singleton]
    split
    · rename_i hsame
      rw [beq_iff_eq] at hsame
      subst hsame
      rw [List.count_eq_zero.2 hnew]
      omega
    · rfl

/-- what is joined to a port stands there once -/
theorem duplicate_joined {kept moved : Port} {e : Edge} : (joined kept moved).Duplicate e ↔ kept.Duplicate e := by
  induction moved generalizing kept with
  | nil => rfl
  | cons e' moved ih =>
    have hstep : joined kept (e' :: moved) = joined (insertEdge e' kept) moved := rfl
    rw [hstep, ih, duplicate_insertEdge]

/-- only what stood twice on the ports of a source still does when the ports of another name are added -/
theorem duplicate_merged {c : Connections} {old new : String} {source : Key} (hsource : source ≠ .text old)
    {portType : String} {i : Nat} {e : Edge} :
    (c.merged old new source portType i).Duplicate e ↔ (c.portAt source portType i).Duplicate e := by
  unfold merged
  split
  · rename_i hnew
    rw [duplicate_joined, Key.eq_text_of_beq (BEq.symm hnew)]
  · rw [if_neg fun hold => hsource (Key.eq_text_of_beq (BEq.symm hold))]

/-- **What stands twice once a name is changed** stood twice, or two different edges came to be it. -/
theorem Apart.duplicate_rename_iff {c : Connections} (h : Apart c) {old new : String} (hne : old ≠ new) {source : Key}
    (hsource : source ≠ .text old) {portType : String} {i : Nat} {e : Edge} :
    ((c.rename old new).portAt source portType i).Duplicate e ↔
      (∃ e₁, e₁.renamed (redirect old new) = e ∧ (c.portAt source portType i).Duplicate e₁) ∨
        ∃ e₁ ∈ c.merged old new source portType i, ∃ e₂ ∈ c.merged old new source portType i,
          e₁ ≠ e₂ ∧ e₁.renamed (redirect old new) = e ∧ e₂.renamed (redirect old new) = e := by
  rw [h.portAt_rename hne, duplicate_map_iff]
  simp only [duplicate_merged hsource]

/-- an edge stands twice on a port of connections that are not without repeated edges -/
theorem Apart.simple_iff_duplicate {c : Connections} (h : Apart c) :
    Simple c ↔ ∀ source portType i e, ¬ (c.portAt source portType i).Duplicate e := by
  simp only [h.simple_iff, List.nodup_iff_forall_not_duplicate]

end Connections

namespace Draft

/-! ## Edges that come together -/

/-- references are replaced in their order: a source is none any more once the given one is replaced -/
def SettledBy (f : String → String) (ref : String) (source : Key) : Prop := ∀ s, source = .text s → f s ≠ s → s ≤ ref

/-- two different edges that mean the same, with sources that are no references any more once the last of their targets
is replaced -/
structure Collide (f : String → String) (l l' : Link) : Prop where
  differ : l.edge ≠ l'.edge
  same : l.renamed f = l'.renamed f
  -- sources that come together later are joined when both targets are the same already, and one edge is left out
  together : ∃ ref, (ref = l.edge.node ∨ ref = l'.edge.node) ∧ f ref ≠ ref ∧
    SettledBy f ref l.source ∧ SettledBy f ref l'.source

/-- two edges come to be the same edge and stand twice -/
def Repeats (f : String → String) (c : Connections) (e : Edge) : Prop :=
  ∃ l ∈ c.links, ∃ l' ∈ c.links, Collide f l l' ∧ l.edge.renamed f = e

/-- an edge stands twice on a source that means what it says, or comes to do so -/
def EndsTwice (f : String → String) (c : Connections) (e : Edge) : Prop :=
  (∃ source portType i e₁, source.renamed f = source ∧ e₁.renamed f = e ∧
    (c.portAt source portType i).Duplicate e₁) ∨ Repeats f c e

/-- the first reference of connections is replaced by what it stands for -/
structure Replaces (f : String → String) (c : Connections) (old new : String) : Prop where
  differ : old ≠ new
  means : f new = new
  keeps : f ∘ redirect old new = f
  first : ∀ s ∈ mentioned c, f s ≠ s → old ≤ s

section

variable {f : String → String} {c : Connections} {old new : String} {l l' : Link}

theorem Replaces.old_means (h : Replaces f c old new) : f old = new := by
  have hold := congrFun h.keeps old
  rw [Function.comp_apply, redirect, if_pos rfl, h.means] at hold
  exact hold.symm

/-- what is a reference still is none that was replaced -/
theorem Replaces.stays (h : Replaces f c old new) {s : String} (hs : f (redirect old new s) ≠ redirect old new s) :
    redirect old new s = s := by
  unfold redirect at hs ⊢
  split
  · rename_i heq
    rw [if_pos heq] at hs
    exact absurd h.means hs
  · rfl

theorem Replaces.settledBy_iff (h : Replaces f c old new) {ref : String} (href : old ≤ ref) {source : Key} :
    SettledBy f ref (source.renamed (redirect old new)) ↔ SettledBy f ref source := by
  cases source with
  | text s =>
    simp only [SettledBy, Key.renamed, Key.text.injEq, forall_eq']
    by_cases hs : s = old
    · subst hs
      rw [redirect, if_pos rfl]
      exact iff_of_true (fun hother => absurd h.means hother) fun _ => href
    · rw [redirect, if_neg hs]
  | _ => rfl

/-- edges that mean the same and differ have different targets -/
theorem target_ne {e e' : Edge} (hne : e ≠ e') (hsame : e.renamed f = e'.renamed f) : e.node ≠ e'.node := by
  intro hnode
  obtain ⟨node, type, index⟩ := e
  obtain ⟨node', type', index'⟩ := e'
  simp only [Edge.renamed, Edge.mk.injEq] at hsame
  simp only at hnode
  rw [hnode, hsame.2.1, hsame.2.2] at hne
  exact hne rfl

theorem Replaces.collide_of_renamed (h : Replaces f c old new) (hl : l ∈ c.links) (hl' : l' ∈ c.links)
    (hc : Collide f (l.renamed (redirect old new)) (l'.renamed (redirect old new))) : Collide f l l' where
  differ heq := hc.differ (congrArg (Edge.renamed (redirect old new)) heq)
  same := by
    have hsame := hc.same
    rwa [Link.renamed_renamed, Link.renamed_renamed, h.keeps] at hsame
  together := by
    obtain ⟨ref, htarget, href, hsource, hsource'⟩ := hc.together
    have htarget' : ref = l.edge.node ∨ ref = l'.edge.node := by
      rcases htarget with rfl | rfl
      · exact Or.inl (h.stays href)
      · exact Or.inr (h.stays href)
    have hle : old ≤ ref := by
      rcases htarget' with rfl | rfl
      · exact h.first _ (mem_mentioned_target hl) href
      · exact h.first _ (mem_mentioned_target hl') href
    exact ⟨ref, htarget', href, (h.settledBy_iff hle).1 hsource, (h.settledBy_iff hle).1 hsource'⟩

/-- a target that is a reference still comes after the one that was replaced -/
theorem Replaces.le_target (h : Replaces f c old new) (hl : l ∈ c.links)
    (hs : f (redirect old new l.edge.node) ≠ redirect old new l.edge.node) : old ≤ redirect old new l.edge.node := by
  have hsame := h.stays hs
  rw [hsame] at hs ⊢
  exact h.first _ (mem_mentioned_target hl) hs

theorem Replaces.collide_renamed (h : Replaces f c old new) (hl : l ∈ c.links) (hl' : l' ∈ c.links)
    (hc : Collide f l l') (hdiffer : (l.renamed (redirect old new)).edge ≠ (l'.renamed (redirect old new)).edge) :
    Collide f (l.renamed (redirect old new)) (l'.renamed (redirect old new)) := by
  have hsame : (l.renamed (redirect old new)).renamed f = (l'.renamed (redirect old new)).renamed f := by
    rw [Link.renamed_renamed, Link.renamed_renamed, h.keeps]
    exact hc.same
  refine ⟨hdiffer, hsame, ?_⟩
  obtain ⟨ref, htarget, href, hsource, hsource'⟩ := hc.together
  by_cases hold : ref = old
  · -- one of the targets is a reference still, and comes after the sources
    subst hold
    have hlater : ∃ ref', (ref' = redirect ref new l.edge.node ∨ ref' = redirect ref new l'.edge.node) ∧
        f ref' ≠ ref' := by
      by_contra hnone
      push Not at hnone
      apply target_ne hdiffer (congrArg Link.edge hsame)
      calc redirect ref new l.edge.node = f (redirect ref new l.edge.node) := (hnone _ (Or.inl rfl)).symm
        _ = f (redirect ref new l'.edge.node) := congrArg (fun l : Link => l.edge.node) hsame
        _ = redirect ref new l'.edge.node := hnone _ (Or.inr rfl)
    obtain ⟨ref', htarget', href'⟩ := hlater
    have hle : ref ≤ ref' := by
      rcases htarget' with rfl | rfl
      · exact h.le_target hl href'
      · exact h.le_target hl' href'
    exact ⟨ref', htarget', href', (h.settledBy_iff hle).2 fun s hs hne => (hsource s hs hne).trans hle,
      (h.settledBy_iff hle).2 fun s hs hne => (hsource' s hs hne).trans hle⟩
  · have htarget' : ref = redirect old new l.edge.node ∨ ref = redirect old new l'.edge.node := by
      refine htarget.imp (fun heq => ?_) fun heq => ?_
      all_goals rw [redirect, if_neg (heq ▸ hold)]; exact heq
    have hle : old ≤ ref := by
      rcases htarget with rfl | rfl
      · exact h.first _ (mem_mentioned_target hl) href
      · exact h.first _ (mem_mentioned_target hl') href
    exact ⟨ref, htarget', href, (h.settledBy_iff hle).2 hsource, (h.settledBy_iff hle).2 hsource'⟩

/-- a change of a name makes two names the same when one is changed to the other -/
theorem eq_of_redirect_eq {s t : String} (h : redirect old new s = redirect old new t) (hne : s ≠ t) :
    s = old ∧ t = new ∨ s = new ∧ t = old := by
  unfold redirect at h
  split at h
  · rename_i hs
    split at h
    · rename_i ht
      exact absurd (hs.trans ht.symm) hne
    · exact Or.inl ⟨hs, h.symm⟩
  · split at h
    · rename_i ht
      exact Or.inr ⟨h, ht⟩
    · exact absurd h hne

/-- the sources of edges that become the same are what they mean by then -/
theorem Replaces.settledBy_of_joined (h : Replaces f c old new) (hc : Collide f l l')
    (hjoined : (l.renamed (redirect old new)).edge = (l'.renamed (redirect old new)).edge) :
    SettledBy f old l.source ∧ SettledBy f old l'.source := by
  obtain ⟨ref, htarget, href, hsources⟩ := hc.together
  have hother : ref ≠ new := fun heq => href (heq ▸ h.means)
  have hold : ref = old := by
    rcases eq_of_redirect_eq (congrArg Edge.node hjoined) (target_ne hc.differ (congrArg Link.edge hc.same)) with
      ⟨hs, ht⟩ | ⟨hs, ht⟩
    · exact htarget.elim (fun heq => heq.trans hs) fun heq => absurd (heq.trans ht) hother
    · exact htarget.elim (fun heq => absurd (heq.trans hs) hother) fun heq => heq.trans ht
  exact hold ▸ hsources

theorem Replaces.source_eq (h : Replaces f c old new) (hl : l ∈ c.links) (hs : SettledBy f old l.source) :
    l.source.renamed (redirect old new) = l.source.renamed f := by
  cases hsource : l.source with
  | text s =>
    rw [Key.renamed, Key.renamed, redirect]
    split
    · rename_i heq
      rw [heq, h.old_means]
    · rename_i hne
      by_contra hother
      have hstale : f s ≠ s := fun heq => hother (congrArg Key.text heq.symm)
      exact hne (le_antisymm (hs s hsource hstale) (h.first s (mem_mentioned_source hl hsource) hstale))
  | _ => rfl

theorem settledBy_of_means {source : Key} (h : source.renamed f = source) (ref : String) : SettledBy f ref source := by
  rintro s rfl hs
  exact absurd (Key.text.inj h) hs

theorem Replaces.renamed_edge (h : Replaces f c old new) (e : Edge) :
    (e.renamed (redirect old new)).renamed f = e.renamed f := by
  rw [Edge.renamed_renamed, h.keeps]

theorem Replaces.source_ne (h : Replaces f c old new) {source : Key} (hsource : source.renamed f = source) :
    source ≠ .text old := by
  rintro rfl
  exact h.differ (h.old_means ▸ Key.text.inj hsource).symm

/-- different edges of one port that become the same collide -/
theorem Replaces.repeats_of_merged (h : Replaces f c old new) {source : Key} (hsource : source.renamed f = source)
    {portType : String} {i : Nat} {e e' : Edge} (he : e ∈ c.merged old new source portType i)
    (he' : e' ∈ c.merged old new source portType i) (hne : e ≠ e')
    (hsame : e.renamed (redirect old new) = e'.renamed (redirect old new)) : Repeats f c (e.renamed f) := by
  obtain ⟨written, hwritten, hlinks⟩ := c.exists_written (redirect old new) source
  obtain ⟨source₁, hsource₁, he⟩ := (Connections.mem_merged h.differ).1 he
  obtain ⟨source₂, hsource₂, he'⟩ := (Connections.mem_merged h.differ).1 he'
  obtain ⟨l, hl, hls, hlt, hlp, rfl⟩ := hlinks source₁ hsource₁ portType i e he
  obtain ⟨l', hl', hls', hlt', hlp', rfl⟩ := hlinks source₂ hsource₂ portType i e' he'
  have hmeans : written.renamed f = written := by
    cases written with
    | text s => rwa [Key.eq_text_of_beq (BEq.symm hwritten)] at hsource
    | _ => rfl
  have hsettled : ∀ l : Link, l.source.renamed (redirect old new) = written → SettledBy f old l.source :=
    fun l hl => (h.settledBy_iff (le_refl old)).1 (hl ▸ settledBy_of_means hmeans old)
  have hrenamed : l.renamed (redirect old new) = l'.renamed (redirect old new) := by
    rw [Link.renamed, Link.renamed, hls, hls', hlt, hlt', hlp, hlp', hsame]
  have hmeant : l.renamed f = l'.renamed f := by
    rw [← h.keeps, ← Link.renamed_renamed, hrenamed, Link.renamed_renamed]
  have htarget : old = l.edge.node ∨ old = l'.edge.node := by
    rcases eq_of_redirect_eq (congrArg Edge.node hsame) (target_ne hne (congrArg Link.edge hmeant)) with
      ⟨hs, -⟩ | ⟨-, ht⟩
    · exact Or.inl hs.symm
    · exact Or.inr ht.symm
  have hstale : f old ≠ old := h.old_means ▸ h.differ.symm
  exact ⟨l, hl, l', hl', ⟨hne, hmeant, old, htarget, hstale, hsettled l hls, hsettled l' hls'⟩, rfl⟩

/-- edges that collide and become the same stand twice on a source that means what it says -/
theorem Replaces.duplicate_of_joined (h : Replaces f c old new) (hc : c.Apart) (hidem : ∀ s, f (f s) = f s)
    (hl : l ∈ c.links) (hl' : l' ∈ c.links) (hcollide : Collide f l l')
    (hjoined : (l.renamed (redirect old new)).edge = (l'.renamed (redirect old new)).edge) :
    (l.source.renamed f).renamed f = l.source.renamed f ∧
      ((c.rename old new).portAt (l.source.renamed f) l.portType l.port).Duplicate
        (l.edge.renamed (redirect old new)) := by
  obtain ⟨hs, hs'⟩ := h.settledBy_of_joined hcollide hjoined
  have hsame := hcollide.same
  rw [Link.renamed, Link.renamed, Link.mk.injEq] at hsame
  obtain ⟨hsource, htype, hport, -⟩ := hsame
  have hmeans : (l.source.renamed f).renamed f = l.source.renamed f := by
    cases l.source with
    | text s => rw [Key.renamed, Key.renamed, hidem]
    | _ => rfl
  have hmem := (Connections.mem_merged h.differ).2 ⟨_, h.source_eq hl hs, hc.mem_portAt hl⟩
  have hmem' := (Connections.mem_merged h.differ).2 ⟨_, (h.source_eq hl' hs').trans hsource.symm, hc.mem_portAt hl'⟩
  rw [← htype, ← hport] at hmem'
  exact ⟨hmeans, (hc.duplicate_rename_iff h.differ (h.source_ne hmeans)).2
    (Or.inr ⟨_, hmem, _, hmem', hcollide.differ, rfl, hjoined.symm⟩)⟩

/-- **Replacing a reference does not change what stands twice in the end.** -/
theorem Replaces.endsTwice_iff (h : Replaces f c old new) (hc : c.Canonical) (hidem : ∀ s, f (f s) = f s) {e : Edge} :
    EndsTwice f (c.rename old new) e ↔ EndsTwice f c e := by
  have hapart := hc.toKeyed.apart
  constructor
  · rintro (⟨source, portType, i, e₁, hsource, rfl, hdup⟩ | ⟨l₁, hl₁, l₂, hl₂, hcollide, rfl⟩)
    · rcases (hapart.duplicate_rename_iff h.differ (h.source_ne hsource)).1 hdup with
        ⟨e₂, rfl, hbefore⟩ | ⟨e₂, he₂, e₃, he₃, hne, rfl, hsame⟩
      · exact Or.inl ⟨source, portType, i, e₂, hsource, (h.renamed_edge e₂).symm, hbefore⟩
      · rw [h.renamed_edge]
        exact Or.inr (h.repeats_of_merged hsource he₂ he₃ hne hsame.symm)
    · obtain ⟨l, hl, rfl⟩ := (hc.toKeyed.mem_links_rename old new).1 hl₁
      obtain ⟨l', hl', rfl⟩ := (hc.toKeyed.mem_links_rename old new).1 hl₂
      exact Or.inr ⟨l, hl, l', hl', h.collide_of_renamed hl hl' hcollide, (h.renamed_edge l.edge).symm⟩
  · rintro (⟨source, portType, i, e₁, hsource, rfl, hdup⟩ | ⟨l, hl, l', hl', hcollide, rfl⟩)
    · refine Or.inl ⟨source, portType, i, _, hsource, h.renamed_edge e₁, ?_⟩
      exact (hapart.duplicate_rename_iff h.differ (h.source_ne hsource)).2 (Or.inl ⟨e₁, rfl, hdup⟩)
    · by_cases hjoined : (l.renamed (redirect old new)).edge = (l'.renamed (redirect old new)).edge
      · obtain ⟨hmeans, hdup⟩ := h.duplicate_of_joined hapart hidem hl hl' hcollide hjoined
        exact Or.inl ⟨_, _, _, _, hmeans, h.renamed_edge l.edge, hdup⟩
      · exact Or.inr ⟨_, (hc.toKeyed.mem_links_rename old new).2 ⟨l, hl, rfl⟩, _,
          (hc.toKeyed.mem_links_rename old new).2 ⟨l', hl', rfl⟩,
          h.collide_renamed hl hl' hcollide hjoined, h.renamed_edge l.edge⟩

end

/-! ## Keying by names -/

section

variable {refs : References} {names : List String} (hnames : ∀ e ∈ refs, e.2 ∈ names)

include hnames

theorem meaning_meaning (s : String) : meaning refs names (meaning refs names s) = meaning refs names s := by
  have hmeans : meaning refs names s = (staleTo? refs names s).getD s := rfl
  cases hs : staleTo? refs names s with
  | none =>
    rw [hs, Option.getD_none] at hmeans
    rw [hmeans, hmeans]
  | some name =>
    rw [hs, Option.getD_some] at hmeans
    rw [hmeans, meaning_of_mem (of_staleTo?_eq_some hnames hs).2]

theorem replaces_of_stale {c : Connections} {ref name : String} (hstale : staleTo? refs names ref = some name)
    (hfirst : ∀ s ∈ mentioned c, staleTo? refs names s ≠ none → ref ≤ s) :
    Replaces (meaning refs names) c ref name where
  differ heq := (of_staleTo?_eq_some hnames hstale).1 (heq ▸ (of_staleTo?_eq_some hnames hstale).2)
  means := meaning_of_mem (of_staleTo?_eq_some hnames hstale).2
  keeps := meaning_redirect hnames hstale
  first s hs hother := by
    refine hfirst s hs fun hnone => hother ?_
    rw [meaning, hnone, Option.getD_none]

variable (hblank : ∀ e ∈ refs, Text.isBlankText e.2 = false)

include hblank

theorem endsTwice_rekey {c : Connections} (hc : c.Canonical) {e : Edge} :
    EndsTwice (meaning refs names) (rekey refs names c).1 e ↔ EndsTwice (meaning refs names) c e := by
  refine rekey_induction (P := fun d => EndsTwice (meaning refs names) d e ↔ EndsTwice (meaning refs names) c e) hblank
    hnames hc Iff.rfl ?_
  intro d ref name hd hstale _ hfirst ih
  exact ((replaces_of_stale hnames hstale hfirst).endsTwice_iff hd (meaning_meaning hnames)).trans ih

/-- **The edges that stand twice between names** are those that two edges come to be. -/
theorem duplicate_rekey_iff {c : Connections} (hc : c.Canonical) (hs : c.Simple) {e : Edge} :
    (∃ source portType i, ((rekey refs names c).1.portAt source portType i).Duplicate e) ↔
      Repeats (meaning refs names) c e := by
  have hstart : EndsTwice (meaning refs names) c e ↔ Repeats (meaning refs names) c e := by
    refine or_iff_right ?_
    rintro ⟨source, portType, i, e₁, -, -, hdup⟩
    exact hc.toKeyed.apart.simple_iff_duplicate.1 hs _ _ _ _ hdup
  -- where all references are replaced, everything means what it says
  have hresolved := resolved_rekey hc.toKeyed hnames
  have hmeans : ∀ source portType i e₁, ((rekey refs names c).1.portAt source portType i).Duplicate e₁ →
      e₁.renamed (meaning refs names) = e₁ := by
    intro source portType i e₁ hdup
    obtain ⟨source', -, hlinks⟩ := (rekey refs names c).1.exists_source source
    exact congrArg Link.edge (renamed_of_resolved hresolved (hlinks portType i e₁ hdup.mem))
  rw [← hstart, ← endsTwice_rekey hnames hblank hc]
  constructor
  · rintro ⟨source, portType, i, hdup⟩
    have hsource : source.renamed (meaning refs names) = source := by
      cases source with
      | text s =>
        exact congrArg Link.source (renamed_of_resolved hresolved (Connections.mem_links_of_mem_portAt hdup.mem))
      | _ => rfl
    exact Or.inl ⟨source, portType, i, e, hsource, hmeans _ _ _ _ hdup, hdup⟩
  · rintro (⟨source, portType, i, e₁, -, rfl, hdup⟩ | ⟨l, hl, l', hl', hcollide, -⟩)
    · rw [hmeans _ _ _ _ hdup]
      exact ⟨source, portType, i, hdup⟩
    · have hsame := hcollide.same
      rw [renamed_of_resolved hresolved hl, renamed_of_resolved hresolved hl'] at hsame
      exact absurd (congrArg Link.edge hsame) hcollide.differ

end

/-! ## The document -/

theorem duplicate_filter_iff {q : Edge → Bool} {p : Port} {e : Edge} :
    (p.filter q).Duplicate e ↔ q e = true ∧ p.Duplicate e := by
  constructor
  · exact fun h => ⟨List.of_mem_filter h.mem, h.mono_sublist List.filter_sublist⟩
  · rintro ⟨hq, h⟩
    rw [List.duplicate_iff_two_le_count] at h ⊢
    rwa [List.count_filter hq]

/-- **When no edge stands twice in a document**: two edges of the draft come to be one only into triggers, and these are
dropped. -/
theorem simple_keyed_iff {resolver : Resolver} {sources : Identifiers} {draft : Fields} {c : Connections}
    (hc : c.Canonical) (hs : c.Simple) :
    (keyed (keepNodes resolver sources draft) c).Simple ↔
      ∀ e, Repeats (keepNodes resolver sources draft).meaning c e →
        e.node ∈ Repair.triggerNames (keepNodes resolver sources draft).nodes := by
  have hblank := (sound_keepNodes resolver sources draft).refs
  have hnames := referred_keepNodes resolver sources draft
  have hrekeyed := canonical_rekey hblank
    ((keepNodes resolver sources draft).nodes.filterMap fun n => n.name.text?) hc
  rw [keyed_eq, (hrekeyed.toKeyed.apart.mapPorts _).simple_iff_duplicate]
  simp only [Connections.portAt_mapPorts (f := (·.filter (Repair.sparesTriggers _))) _ rfl, duplicate_filter_iff]
  constructor
  · intro hnone e he
    obtain ⟨source, portType, i, hdup⟩ := (duplicate_rekey_iff hnames hblank hc hs).2 he
    simpa [Repair.sparesTriggers, hdup] using hnone source portType i e
  · rintro htriggers source portType i e ⟨hspared, hdup⟩
    have htrigger := htriggers e ((duplicate_rekey_iff hnames hblank hc hs).1 ⟨source, portType, i, hdup⟩)
    simp [Repair.sparesTriggers, htrigger] at hspared

/-- steps that are changes make up a run of changes -/
theorem exists_run_foldl {α : Type} {step : Connections × Trace → α → Connections × Trace}
    (hstep : ∀ acc x, ∃ changes, (step acc x).1 = acc.1.run changes) (later : List α) (acc : Connections × Trace) :
    ∃ changes, (later.foldl step acc).1 = acc.1.run changes := by
  induction later generalizing acc with
  | nil => exact ⟨[], rfl⟩
  | cons x later ih =>
    obtain ⟨first, hfirst⟩ := hstep acc x
    obtain ⟨rest, hrest⟩ := ih (step acc x)
    refine ⟨first ++ rest, ?_⟩
    rw [List.foldl_cons, hrest, hfirst, Connections.run_append]

/-- the connections of the document come from those of the draft by changes of names and removal of edges -/
theorem exists_changes (kept : State) (c : Connections) : ∃ changes, keyed kept c = c.run changes := by
  have hrekeyed : ∀ (names : List String) acc ref,
      ∃ changes, (rekeyRef kept.refs names acc ref).1 = acc.1.run changes := by
    intro names acc ref
    unfold rekeyRef
    cases staleTo? kept.refs names ref with
    | none => exact ⟨[], rfl⟩
    | some name => exact ⟨[.rename ref name], rfl⟩
  have hdropped : ∀ acc n, ∃ changes, (dropIncoming acc n).1 = acc.1.run changes := by
    intro acc n
    unfold dropIncoming
    split
    · dsimp only
      split
      · exact ⟨[], rfl⟩
      · exact ⟨[.remove _], rfl⟩
    · exact ⟨[], rfl⟩
  obtain ⟨first, hfirst⟩ :=
    exists_run_foldl (hrekeyed (kept.nodes.filterMap fun n => n.name.text?)) (mentioned c) (c, [])
  obtain ⟨last, hlast⟩ := exists_run_foldl hdropped kept.nodes
    ((rekey kept.refs (kept.nodes.filterMap fun n => n.name.text?) c).1, [])
  refine ⟨first ++ last, ?_⟩
  rw [Connections.run_append]
  exact hlast.trans (congrArg (fun d => Connections.run d last) hfirst)

/-- **An edge comes to stand twice on a port by a change of names only.** From connections that were read, or from none,
any run of changes keeps all ports without repeated edges exactly when none of its changes of names makes two edges the
same. The connections of a document come from those of its draft by such a run, and have no repeated edge exactly when
the edges of the draft that collide lead to triggers. -/
theorem repeats_by_renaming {start : Connections} (hstart : start = .empty ∨ ∃ v, Connections.load v = .ok start)
    (changes : List Connections.Change) :
    ((∀ done, done <+: changes → (start.run done).Simple) ↔
      ∀ done old new, done ++ [.rename old new] <+: changes → ¬ (start.run done).Clashes (redirect old new)) ∧
    ∀ resolver sources draft built, build resolver sources draft = .ok built →
      ∃ fields sources' c d, minimalShape draft = .ok fields ∧
        Connections.load (Value.field "connections" fields) = .ok c ∧
        Document.Holds built.document (keepNodes resolver sources' fields).nodes d ∧
        (∃ changes, d = c.run changes) ∧
        (d.Simple ↔ ∀ e, Repeats (keepNodes resolver sources' fields).meaning c e →
          e.node ∈ Repair.triggerNames (keepNodes resolver sources' fields).nodes) := by
  constructor
  · have hform : start.Apart ∧ start.Simple := by
      rcases hstart with rfl | ⟨v, hv⟩
      · exact ⟨Connections.canonical_empty.toKeyed.apart, by simp [Connections.Simple, Connections.EachPort,
          Connections.empty]⟩
      · obtain ⟨hcanonical, hsimple⟩ := Connections.load_form hv
        exact ⟨hcanonical.toKeyed.apart, hsimple⟩
    exact Connections.simple_run_iff hform.1 hform.2 changes
  · intro resolver sources draft built h
    obtain ⟨fields, sources', c, hfields, hload, hholds, -⟩ := build_eq_ok h
    obtain ⟨hcanonical, hsimple⟩ := Connections.load_form hload
    exact ⟨fields, sources', c, _, hfields, hload, hholds, exists_changes _ c, simple_keyed_iff hcanonical hsimple⟩

/-- a draft that names the target of an edge once by its identifier and once by its name -/
def aliasedDraft : Fields := [
  (.text "nodes", .list [
    .object [(.text "id", .text "a"), (.text "name", .text "Begin"),
      (.text "type", .text "n8n-nodes-base.manualTrigger")],
    .object [(.text "id", .text "b"), (.text "name", .text "Next"), (.text "type", .text "n8n-nodes-base.noOp")]]),
  (.text "connections", .object [
    (.text "Begin", .object [(.text "main", .list [.list [.text "Next", .text "b"]])])])]

/-- an edge that is added under two names of its target, and these become one -/
def aliasing : List Connections.Change := [
  .add (.text "Begin") "main" 0 ⟨"Next", "main", 0⟩, .add (.text "Begin") "main" 0 ⟨"b", "main", 0⟩, .rename "b" "Next"]

instance (c : Connections) : Decidable c.Simple :=
  inferInstanceAs (Decidable (∀ x ∈ c.table, ∀ y ∈ x.2, ∀ p ∈ y.2, p.Nodup))

/-- the connections of its document, as they are written there -/
theorem builds_aliasedDraft :
    ∃ built c, build .standard firstSources (.object aliasedDraft) = .ok built ∧
      Connections.normalize (Value.field "connections" built.document) = .ok c ∧ ¬ c.Simple := by
  have hruns : ((build .standard firstSources (.object aliasedDraft)).toOption.any fun built =>
      (Connections.normalize (Value.field "connections" built.document)).toOption.any fun c =>
        !decide c.Simple) = true := by
    -- the connections mention names in order, and sorting is nothing that the kernel computes
    simp only [build, rekey, mentioned_eq]
    decide +kernel
  obtain ⟨built, hbuilt, hrepeats⟩ := exists_ok_of_any hruns
  obtain ⟨c, hread, hrepeats⟩ := exists_ok_of_any hrepeats
  exact ⟨built, c, hbuilt, hread, by simpa using hrepeats⟩

/-- the document of this draft, and the same edges added one by one before their targets become the same -/
theorem repeats_by_renaming_aliasedDraft :
    (¬ ∀ done, done <+: aliasing → (Connections.empty.run done).Simple) ∧
    ∃ built, build .standard firstSources (.object aliasedDraft) = .ok built ∧
      ∃ fields sources' c d, minimalShape (.object aliasedDraft) = .ok fields ∧
        Connections.load (Value.field "connections" fields) = .ok c ∧
        Document.Holds built.document (keepNodes .standard sources' fields).nodes d ∧ (∃ changes, d = c.run changes) ∧
        (d.Simple ↔ ∀ e, Repeats (keepNodes .standard sources' fields).meaning c e →
          e.node ∈ Repair.triggerNames (keepNodes .standard sources' fields).nodes) := by
  obtain ⟨built, -, hbuilt, -⟩ := builds_aliasedDraft
  obtain ⟨hrun, hdocument⟩ := repeats_by_renaming (Or.inl rfl) aliasing
  rw [hrun]
  refine ⟨fun hnever => hnever (aliasing.take 2) "b" "Next" ⟨[], rfl⟩ ?_, built, hbuilt, hdocument _ _ _ _ hbuilt⟩
  unfold Connections.Clashes
  decide +kernel

/-- **A built document can have an edge twice on a port**: both names of the target become the same. -/
theorem build_repeats_edge :
    ∃ built nodes c, build .standard firstSources (.object aliasedDraft) = .ok built ∧
      Document.Holds built.document nodes c ∧ ¬ c.Simple := by
  obtain ⟨built, c, hbuilt, hread, hrepeats⟩ := builds_aliasedDraft
  obtain ⟨nodes, c', hwell⟩ := build_wellBuilt hbuilt
  rw [hwell.connections_field, Connections.normalize_toValue hwell.canonical] at hread
  cases hread
  exact ⟨built, nodes, c, hbuilt, hwell.toHolds, hrepeats⟩

end Draft

end WorkflowGraph
