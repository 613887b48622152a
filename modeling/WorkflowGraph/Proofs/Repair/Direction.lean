import Mathlib.Data.Prod.Lex
import WorkflowGraph.Proofs.Number.Double
import WorkflowGraph.Proofs.Repair.Repetition
/-
The direction of repaired edges. A node is connected from its left and chained to its right, and a merge node stands
right of what it joins or, when the spacing is lost in rounding, behind it in the list. So new edges all lead onward in
one order, from left to right and then down the list, and a loop of a repaired document runs along an edge that was
there before and does not lead to the right.

- `onward_of_mend`: new edges lead onward.
- `repair_turns_back`: where the loops of a repaired document come from.
- `repair_closes_loop`: an old edge to the left becomes part of a loop.
-/
namespace WorkflowGraph

namespace Document

/-- an edge of a document leads from one name to another, be they nodes or not -/
def Linked (document : Value) (a b : String) : Prop :=
  ∃ fields c, document = .object fields ∧ Connections.load (Value.field "connections" fields) = .ok c ∧
    c.Joins (.text a) b

/-- the graph of a document: edges between its nodes -/
def Arrow (document : Value) (a b : String) : Prop :=
  Linked document a b ∧ Known (nodesIn document) a ∧ Known (nodesIn document) b

/-- a node of a document stands at a number -/
def Placed (document : Value) (a : String) : Prop :=
  ∃ n ∈ nodesIn document, n.name = .text a ∧ ∃ p, n.place = .ok p ∧ p.x ≠ .nan

/-- one node of a document stands left of another -/
def LeftOf (document : Value) (a b : String) : Prop :=
  ∃ n ∈ nodesIn document, ∃ m ∈ nodesIn document, n.name = .text a ∧ m.name = .text b ∧
    ∃ p q, n.place = .ok p ∧ m.place = .ok q ∧ p.x.lt q.x = true

/-- the edges of a document that holds some connections are theirs -/
theorem Holds.linked_iff {fields : Fields} {nodes : List Node} {c : Connections} (h : Holds fields nodes c)
    (hcanonical : c.Canonical) (hsimple : c.Simple) {a b : String} :
    Linked (.object fields) a b ↔ c.Joins (.text a) b := by
  have hload : Connections.load (Value.field "connections" fields) = .ok c := by
    rw [h.connections_field, Connections.load_toValue_simple hcanonical hsimple]
  constructor
  · rintro ⟨_, d, ⟨⟩, hd, hjoins⟩
    cases hload.symm.trans hd
    exact hjoins
  · exact fun hjoins => ⟨fields, c, rfl, hload, hjoins⟩

/-- the edges of a document with everything that places them -/
def linksIn : Value → List Link
  | .object fields => ((Connections.load (Value.field "connections" fields)).toOption.map Connections.links).getD []
  | _ => []

theorem linked_iff_mem {document : Value} {a b : String} :
    Linked document a b ↔ ∃ l ∈ linksIn document, l.source = .text a ∧ l.edge.node = b := by
  constructor
  · rintro ⟨fields, c, rfl, hc, hjoins⟩
    have hlinks : linksIn (.object fields) = c.links := by
      rw [linksIn, hc]
      rfl
    rw [hlinks]
    exact (Connections.load_form hc).1.toKeyed.exists_link_iff.2 hjoins
  · rintro ⟨l, hl, hsource⟩
    cases document with
    | object fields =>
      cases hc : Connections.load (Value.field "connections" fields) with
      | error fault =>
        rw [linksIn, hc] at hl
        cases hl
      | ok c =>
        rw [linksIn, hc] at hl
        exact ⟨fields, c, rfl, hc, (Connections.load_form hc).1.toKeyed.exists_link_iff.1 ⟨l, hl, hsource⟩⟩
    | _ => cases hl

instance (document : Value) (a b : String) : Decidable (Linked document a b) := decidable_of_iff _ linked_iff_mem.symm

instance (document : Value) (a b : String) : Decidable (Arrow document a b) := inferInstanceAs (Decidable (_ ∧ _))

end Document

namespace Repair

/-! ## Places -/

/-- where a name stands from left to right, and then in the list -/
def StandsAt (nodes : List Node) (a : String) (k : ℤ ×ₗ ℕ) : Prop :=
  ∃ n, nodes[(ofLex k).2]? = some n ∧ n.name = .text a ∧ ∃ p, n.place = .ok p ∧ p.x.rank? = some (ofLex k).1

theorem StandsAt.mem {nodes : List Node} {a : String} {k : ℤ ×ₗ ℕ} (h : StandsAt nodes a k) :
    ∃ n ∈ nodes, n.name = .text a ∧ ∃ p, n.place = .ok p ∧ p.x.rank? = some (ofLex k).1 := by
  obtain ⟨n, hn, hrest⟩ := h
  exact ⟨n, List.mem_of_getElem? hn, hrest⟩

/-- a node whose place is a number stands somewhere -/
theorem exists_standsAt {nodes : List Node} {a : String} {n : Node} {p : Place} {x : Int} (hn : n ∈ nodes)
    (hname : n.name = .text a) (hp : n.place = .ok p) (hx : p.x.rank? = some x) :
    ∃ k, StandsAt nodes a k ∧ (ofLex k).1 = x := by
  obtain ⟨i, hi⟩ := List.mem_iff_getElem?.1 hn
  exact ⟨toLex (x, i), ⟨n, hi, hname, p, hp, hx⟩, rfl⟩

/-- a name that only one node has stands at one place -/
theorem StandsAt.unique {nodes : List Node} (hw : WellNamed nodes) {a : String} {j k : ℤ ×ₗ ℕ}
    (hj : StandsAt nodes a j) (hk : StandsAt nodes a k) : j = k := by
  obtain ⟨n, hn, hna, p, hp, hx⟩ := hj
  obtain ⟨m, hm, hma, q, hq, hy⟩ := hk
  have hlt : (ofLex j).2 < nodes.length := (List.getElem?_eq_some_iff.1 hn).1
  obtain rfl : n = m := hw.eq_of_name (List.mem_of_getElem? hn) (List.mem_of_getElem? hm) (hna.trans hma.symm)
  have hindex : (ofLex j).2 = (ofLex k).2 := (List.getElem?_inj hlt hw.distinct.of_map).1 (hn.trans hm.symm)
  cases hp.symm.trans hq
  have hrank : (ofLex j).1 = (ofLex k).1 := Option.some.inj (hx.symm.trans hy)
  exact ofLex.injective (Prod.ext hrank hindex)

theorem StandsAt.lt {nodes : List Node} {a : String} {k : ℤ ×ₗ ℕ} (h : StandsAt nodes a k) :
    (ofLex k).2 < nodes.length := by
  obtain ⟨n, hn, -⟩ := h
  exact (List.getElem?_eq_some_iff.1 hn).1

/-- among nodes and one more behind them a name stands at the old nodes or at the last one -/
theorem StandsAt.snoc {nodes : List Node} {m : Node} {a : String} {k : ℤ ×ₗ ℕ} (h : StandsAt (nodes ++ [m]) a k) :
    StandsAt nodes a k ∨
      (ofLex k).2 = nodes.length ∧ m.name = .text a ∧ ∃ p, m.place = .ok p ∧ p.x.rank? = some (ofLex k).1 := by
  obtain ⟨n, hn, hrest⟩ := h
  rw [List.getElem?_append] at hn
  split at hn
  · exact Or.inl ⟨n, hn, hrest⟩
  · rename_i hle
    rw [List.getElem?_singleton] at hn
    split at hn
    · cases hn
      exact Or.inr ⟨by omega, hrest⟩
    · cases hn

/-- a name that the last node does not have -/
theorem StandsAt.old {nodes : List Node} {m : Node} {a name : String} {k : ℤ ×ₗ ℕ}
    (h : StandsAt (nodes ++ [m]) a k) (hname : m.name = .text name) (hne : a ≠ name) : StandsAt nodes a k := by
  rcases h.snoc with hold | ⟨-, hm, -⟩
  · exact hold
  · exact absurd (Value.text.inj (hm.symm.trans hname)) hne

/-- a name that only the last node has -/
theorem StandsAt.last {nodes : List Node} {m : Node} {name : String} {k : ℤ ×ₗ ℕ}
    (h : StandsAt (nodes ++ [m]) name k) (hnew : ∀ n ∈ nodes, n.name ≠ .text name) :
    (ofLex k).2 = nodes.length ∧ ∃ p, m.place = .ok p ∧ p.x.rank? = some (ofLex k).1 := by
  rcases h.snoc with hold | ⟨hlast, -, hplace⟩
  · obtain ⟨n, hn, hname, -⟩ := hold.mem
    exact absurd hname (hnew n hn)
  · exact ⟨hlast, hplace⟩

/-- the ends of branches stand no further right than the rightmost of them -/
theorem le_rightmost {x y : Double} {nodes : List Node} (h : rightmost x nodes = .ok y) {a : Int}
    (hx : x.rank? = some a) :
    ∃ b, y.rank? = some b ∧ a ≤ b ∧ ∀ n ∈ nodes, ∀ p, n.place = .ok p → ∀ c, p.x.rank? = some c → c ≤ b := by
  induction nodes generalizing x a with
  | nil =>
    cases h
    exact ⟨a, hx, le_refl a, by simp⟩
  | cons n nodes ih =>
    obtain ⟨place, hplace, h⟩ := bind_eq_ok.1 h
    obtain ⟨m, hm, ham, hpm⟩ := Double.rank?_max (y := place.x) hx
    obtain ⟨b, hb, hmb, hall⟩ := ih h hm
    refine ⟨b, hb, ham.trans hmb, List.forall_mem_cons.2 ⟨fun p hp c hc => ?_, hall⟩⟩
    cases hp.symm.trans hplace
    exact (hpm c hc).trans hmb

/-- something that is no number stays so among the places of nodes -/
theorem rightmost_nan {y : Double} {nodes : List Node} (h : rightmost .nan nodes = .ok y) : y = .nan := by
  induction nodes with
  | nil =>
    cases h
    rfl
  | cons n nodes ih =>
    obtain ⟨place, -, h⟩ := bind_eq_ok.1 h
    exact ih h

/-! ## Edges onward -/

/-- an edge was there before, or joins nodes and leads onward -/
structure Onward (c : Connections) (s : State) : Prop where
  known : ∀ a b, s.connections.Joins (.text a) b → c.Joins (.text a) b ∨ (Known s.nodes a ∧ Known s.nodes b)
  ahead : ∀ a b, s.connections.Joins (.text a) b → ∀ j k, StandsAt s.nodes a j → StandsAt s.nodes b k →
    c.Joins (.text a) b ∨ j < k

/-- an edge from a node to one that stands further right -/
theorem Onward.connect {c : Connections} {s : State} (h : Onward c s) (hw : WellNamed s.nodes) {n m : Node}
    (hn : n ∈ s.nodes) (hm : m ∈ s.nodes) {key : Key} (hkey : n.name.toKey = .ok key)
    (hright : ∀ p q, n.place = .ok p → m.place = .ok q → ∀ x y, p.x.rank? = some x → q.x.rank? = some y → x < y)
    (count : Nat) (rule : String) (detail : List (String × Value)) :
    Onward c (State.fixed { s with connections := s.connections.connect key m.name.toText 0 } count rule detail) := by
  obtain ⟨a', ha', -⟩ := hw.texts n hn
  obtain ⟨b', hb', -⟩ := hw.texts m hm
  have hjoins : ∀ a b, (s.connections.connect key m.name.toText 0).Joins (.text a) b ↔
      s.connections.Joins (.text a) b ∨ (a' = a ∧ b' = b) := by
    intro a b
    rw [ha', Value.toKey_text] at hkey
    rw [← Except.ok.inj hkey, hb', Connections.joins_connect, Key.text_beq_text, decide_eq_true_iff]
    rfl
  constructor
  · intro a b hab
    rcases (hjoins a b).1 hab with hold | ⟨rfl, rfl⟩
    · exact h.known a b hold
    · exact Or.inr ⟨⟨n, hn, ha'⟩, m, hm, hb'⟩
  · intro a b hab j k hj hk
    rcases (hjoins a b).1 hab with hold | ⟨rfl, rfl⟩
    · exact h.ahead a b hold j k hj hk
    · obtain ⟨n', hn', hna, p, hp, hx⟩ := hj.mem
      obtain ⟨m', hm', hmb, q, hq, hy⟩ := hk.mem
      cases hw.eq_of_name hn hn' (ha'.trans hna.symm)
      cases hw.eq_of_name hm hm' (hb'.trans hmb.symm)
      exact Or.inr (Prod.Lex.toLex_lt_toLex.2 (Or.inl (hright p q hp hq _ _ hx hy)))

/-- edges from some nodes to a new one at the end of the list that stands left of none of them -/
theorem Onward.merge {c : Connections} {s : State} (h : Onward c s) {merge : Node} {name : String}
    (hname : merge.name = .text name) (hnew : ∀ n ∈ s.nodes, n.name ≠ .text name) {ends : List String}
    (hends : ∀ a ∈ ends, Known s.nodes a)
    (hright : ∀ a ∈ ends, ∀ n ∈ s.nodes, n.name = .text a → ∀ p q, n.place = .ok p → merge.place = .ok q →
      ∀ x y, p.x.rank? = some x → q.x.rank? = some y → x ≤ y) (count : Nat) (rule : String)
    (detail : List (String × Value)) :
    Onward c (State.fixed
      { s with nodes := s.nodes ++ [merge], connections := joinEnds s.connections name 0 ends } count rule detail) := by
  have hsub : s.nodes ⊆ s.nodes ++ [merge] := List.subset_append_left _ _
  have hfresh : ∀ {a}, Known s.nodes a → a ≠ name := by
    rintro a ⟨n, hn, hna⟩ rfl
    exact hnew n hn hna
  constructor
  · intro a b hab
    rcases joins_joinEnds.1 hab with hold | ⟨ha, rfl⟩
    · exact (h.known a b hold).imp_right fun ⟨ha, hb⟩ => ⟨ha.mono hsub, hb.mono hsub⟩
    · exact Or.inr ⟨(hends a ha).mono hsub, merge, List.mem_append_right _ List.mem_cons_self, hname⟩
  · intro a b hab j k hj hk
    rcases joins_joinEnds.1 hab with hold | ⟨ha, rfl⟩
    · rcases h.known a b hold with hc | ⟨ha, hb⟩
      · exact Or.inl hc
      · exact h.ahead a b hold j k (hj.old hname (hfresh ha)) (hk.old hname (hfresh hb))
    · -- the new edge: from an old node to the one at the end
      obtain ⟨hlast, q, hq, hy⟩ := hk.last hnew
      have hold := hj.old hname (hfresh (hends a ha))
      obtain ⟨n, hn, hna, p, hp, hx⟩ := hold.mem
      have hle := hright a ha n hn hna p q hp hq _ _ hx hy
      refine Or.inr (Prod.Lex.lt_iff.2 ?_)
      rcases hle.lt_or_eq with hlt | heq
      · exact Or.inl hlt
      · exact Or.inr ⟨heq, hlast ▸ hold.lt⟩

/-! ## The steps -/

/-- a merge node stands where it was put -/
theorem place_mergeNode (id name : String) (x y : Double) : (mergeNode id name x y).place = .ok ⟨x, y⟩ := rfl

/-- branches are joined to the right of their ends -/
theorem Onward.reconverge {cfg : BuildConfig} {c : Connections} {s t : State} {registry registry' : NameRegistry}
    {sw : Node} (hspacing : 0 ≤ cfg.spacingX) (h : Onward c s) (hw : WellNamed s.nodes)
    (hr : Registered s.nodes registry) (hstep : reconverge cfg (s, registry) sw = .ok (t, registry')) : Onward c t := by
  obtain ⟨source, -, hcase⟩ := reconverges_of_eq_ok hstep
  cases hcase with
  | alone detail hfew => exact ⟨h.known, h.ahead⟩
  | joined first others origin place right spacing detail hends hmany horigin hrightmost hcfg hplace =>
    have hnamed : ∀ e ∈ first :: others, e.2 ∈ s.nodes ∧ e.2.name = .text e.1 :=
      fun e he => named_of_mem_openEnds (hends ▸ he)
    refine h.merge (name_mergeNode _ _ _ _) (hr.new _) (fun a ha => ?_) (fun a ha n hn hna p q hp hq x y hx hy => ?_)
      _ _ _
    · obtain ⟨e, he, rfl⟩ := List.mem_map.1 ha
      exact ⟨e.2, hnamed e he⟩
    · obtain ⟨e, he, rfl⟩ := List.mem_map.1 ha
      obtain rfl : n = e.2 := hw.eq_of_name hn (hnamed e he).1 (hna.trans (hnamed e he).2.symm)
      rw [place_mergeNode] at hq
      cases hq
      cases hfirst : origin.x.rank? with
      | none =>
        -- a place that is no number makes the place of the merge node none
        rw [Double.rank?_eq_none hfirst] at hrightmost
        rw [rightmost_nan hrightmost] at hy
        cases hy
      | some f =>
        obtain ⟨b, hb, hfb, hall⟩ := le_rightmost hrightmost hfirst
        obtain ⟨m, hm, hpos⟩ := Numeric.units?_toDouble hcfg hspacing
        obtain ⟨y', hy', hby⟩ := Double.le_add hb hm hpos
        cases hy.symm.trans hy'
        rcases List.mem_cons.1 he with rfl | he
        · cases hp.symm.trans horigin
          cases hx.symm.trans hfirst
          exact hfb.trans hby
        · exact (hall e.2 (List.mem_map_of_mem he) p hp x hx).trans hby

/-- a node is connected from its left -/
theorem Onward.connectNode {cfg : BuildConfig} {c : Connections} {s t : State} {n : Node} (h : Onward c s)
    (hw : WellNamed s.nodes) (hn : n ∈ s.nodes) (hstep : connectNode cfg s n = .ok t) : Onward c t := by
  cases connects_of_eq_ok hstep with
  | fed hfed => exact h
  | unresolved hnone detail => exact ⟨h.known, h.ahead⟩
  | connected left key hopen htarget hleft hkey detail =>
    obtain ⟨hmem, origin, place, horigin, hplace, hle⟩ := Rows.left_of_predecessor hleft
    refine h.connect hw hmem hn hkey (fun p q hp hq x y hx hy => ?_) _ _ _
    cases hp.symm.trans hplace
    cases hq.symm.trans horigin
    by_contra hnot
    rw [(Double.le_iff hy hx).2 (not_lt.1 hnot)] at hle
    cases hle

/-- an output is chained to its right -/
theorem Onward.chainNode {cfg : BuildConfig} {c : Connections} {candidates : List Node} {s t : State} {n : Node}
    (hdx : 0 ≤ cfg.rowMinDx) (h : Onward c s) (hw : WellNamed s.nodes) (hn : n ∈ s.nodes)
    (hc : ∀ m ∈ candidates, m ∈ s.nodes) (hstep : chainNode cfg candidates s n = .ok t) : Onward c t := by
  obtain ⟨key, hkey, hcase⟩ := chains_of_eq_ok hstep
  cases hcase with
  | led hled => exact h
  | unresolved hnone => exact h
  | chained right hclosed hout hright detail =>
    obtain ⟨hmem, origin, place, least, horigin, hplace, hleast, hle⟩ := Rows.right_of_successor hright
    refine h.connect hw hn (hc right hmem) hkey (fun p q hp hq x y hx hy => ?_) _ _ _
    cases hp.symm.trans horigin
    cases hq.symm.trans hplace
    obtain ⟨m, hm, hpos⟩ := Numeric.units?_toDouble hleast hdx
    obtain ⟨z, hz, hxz⟩ := Double.le_add hx hm hpos
    by_contra hnot
    rw [(Double.le_iff hy hz).2 ((not_lt.1 hnot).trans hxz)] at hle
    cases hle

/-- **New edges lead onward.** -/
theorem onward_of_mend {cfg : BuildConfig} {c : Connections} {s t : State} (hspacing : 0 ≤ cfg.spacingX)
    (hdx : 0 ≤ cfg.rowMinDx) (hw : WellNamed s.nodes) (hs : Onward c s) (h : mend cfg s = .ok t) : Onward c t :=
  mend_induction hw h hs
    (fun _ _ _ _ _ hnamed hreg _ hstep hold => hold.reconverge hspacing hnamed hreg hstep)
    (fun _ _ _ hnamed hn hstep hold => hold.connectNode hnamed hn hstep)
    fun _ _ _ _ hnamed hn hc hstep hold => hold.chainNode hdx hnamed hn hc hstep

/-! ## Loops -/

/-- an edge of a repaired document between nodes that stand at numbers, which is new or leads to the right -/
structure Forward (before after : Value) (a b : String) : Prop where
  arrow : Document.Arrow after a b
  source : Document.Placed after a
  target : Document.Placed after b
  right : Document.Linked before a b → Document.LeftOf after a b

/-- a node of a document that stands at a number -/
theorem exists_standsAt_of_placed {document : Value} {a : String} (h : Document.Placed document a) :
    ∃ k, StandsAt (Document.nodesIn document) a k := by
  obtain ⟨n, hn, hname, p, hp, hx⟩ := h
  cases hrank : p.x.rank? with
  | none => exact absurd (Double.rank?_eq_none hrank) hx
  | some x =>
    obtain ⟨k, hk, -⟩ := exists_standsAt hn hname hp hrank
    exact ⟨k, hk⟩

/-- a node that stands left of another stands before it -/
theorem lt_of_leftOf {document : Value} (hw : WellNamed (Document.nodesIn document)) {a b : String}
    (h : Document.LeftOf document a b) {j k : ℤ ×ₗ ℕ} (hj : StandsAt (Document.nodesIn document) a j)
    (hk : StandsAt (Document.nodesIn document) b k) : j < k := by
  obtain ⟨n, hn, m, hm, hna, hmb, p, q, hp, hq, hlt⟩ := h
  obtain ⟨x, y, hx, hy, hxy⟩ := Double.lt_eq_true hlt
  obtain ⟨j', hj', rfl⟩ := exists_standsAt hn hna hp hx
  obtain ⟨k', hk', rfl⟩ := exists_standsAt hm hmb hq hy
  rw [hj.unique hw hj', hk.unique hw hk']
  exact Prod.Lex.lt_iff.2 (Or.inl hxy)

/-- edges that each lead on to a later place lead nowhere back -/
theorem not_transGen_of_lt {nodes : List Node} (hw : WellNamed nodes) {r : String → String → Prop}
    (hr : ∀ a b, r a b → ∃ j k, StandsAt nodes a j ∧ StandsAt nodes b k ∧ j < k) (a : String) :
    ¬ Relation.TransGen r a a := by
  have later : ∀ b, Relation.TransGen r a b → ∃ j k, StandsAt nodes a j ∧ StandsAt nodes b k ∧ j < k := by
    intro b hab
    induction hab with
    | single hab => exact hr _ _ hab
    | tail _ hbc ih =>
      obtain ⟨j, k, hj, hk, hjk⟩ := ih
      obtain ⟨k', l, hk', hl, hkl⟩ := hr _ _ hbc
      cases hk.unique hw hk'
      exact ⟨j, l, hj, hl, hjk.trans hkl⟩
  intro hloop
  obtain ⟨j, k, hj, hk, hjk⟩ := later a hloop
  cases hj.unique hw hk
  exact lt_irrefl _ hjk

/-- **The loops of a repaired document turn back along an old edge**: on each of them is an edge that was there before
and does not lead to the right, or a node that does not stand at a number. -/
theorem repair_turns_back {cfg : BuildConfig} {document : Value} {r : Repaired} (hspacing : 0 ≤ cfg.spacingX)
    (hdx : 0 ≤ cfg.rowMinDx) (hw : WellNamed (Document.nodesIn document)) (h : repair cfg document = .ok r) :
    ∀ a, ¬ Relation.TransGen (Forward document r.document) a a := by
  by_cases hn : ∀ fields items, document = .object fields → Value.field "nodes" fields ≠ .list items
  · -- without nodes there are no edges between them
    have hempty := Document.nodesIn_eq_nil hn
    rw [(repair_skips h hn).1]
    refine fun a => not_transGen_of_lt hw (fun a b hab => ?_) a
    obtain ⟨-, ⟨n, hmem, -⟩, -⟩ := hab.arrow
    rw [hempty] at hmem
    cases hmem
  · push Not at hn
    obtain ⟨fields, items, rfl, hitems⟩ := hn
    have hnamed : WellNamed (Document.nodesOf (Value.field "nodes" fields)) := hw
    rw [hitems] at hnamed
    obtain ⟨start, s, hstart, hs, rfl⟩ := repair_mends h hitems fun n hn => (hnamed.texts n hn).imp fun _ hs => hs.1
    obtain ⟨c, hload, hmended⟩ := mended_of_mend hstart hs hnamed
    obtain ⟨c', hload', hnodes, hconnections, -⟩ := canonicalize_connections hstart
    cases hload.symm.trans hload'
    have hbegin : Onward c start := by
      have hold : ∀ a b, start.connections.Joins (.text a) b → c.Joins (.text a) b := by
        rw [hconnections]
        exact fun a b hab => (joins_filter hab).1
      exact ⟨fun a b hab => Or.inl (hold a b hab), fun a b hab _ _ _ _ => Or.inl (hold a b hab)⟩
    have honward := onward_of_mend hspacing hdx (hnodes ▸ hnamed) hbegin hs
    have hholds := holds_written fields s
    have hin : Document.nodesIn (.object (written fields s)) = s.nodes := hholds.nodesOf
    refine not_transGen_of_lt (hin ▸ hmended.named) fun a b hab => ?_
    obtain ⟨j, hj⟩ := exists_standsAt_of_placed hab.source
    obtain ⟨k, hk⟩ := exists_standsAt_of_placed hab.target
    refine ⟨j, k, hj, hk, ?_⟩
    have hjoins := (hholds.linked_iff hmended.canonical hmended.simple).1 hab.arrow.1
    rcases honward.ahead a b hjoins j k (hin ▸ hj) (hin ▸ hk) with hold | hlt
    · exact lt_of_leftOf (hin ▸ hmended.named) (hab.right ⟨fields, c, rfl, hload, hold⟩) hj hk
    · exact hlt

/-! ## A loop that is closed -/

/-- two requests in a row, of which the right one leads back to the left one; the start stands on another row -/
def returnNodes : List Node := [
  batchesNode "1" "Start" "manualTrigger" 0 1000 [],
  batchesNode "2" "Left" "httpRequest" 0 0 [],
  batchesNode "3" "Right" "httpRequest" 200 0 []]

def returnConnections : Connections := Connections.empty.connect (.text "Right") "Left" 0

def returnDocument : Fields := [
  (.text "name", .text "Loop"), (.text "nodes", .list (returnNodes.map Node.toValue)),
  (.text "connections", returnConnections.toValue)]

theorem wellNamed_returnDocument : WellNamed (Document.nodesIn (.object returnDocument)) := by
  have hnodes : Document.nodesIn (.object returnDocument) = returnNodes := Document.nodesOf_map_toValue returnNodes
  have hnames : returnNodes.map Node.name = ["Start", "Left", "Right"].map Value.text := rfl
  rw [hnodes]
  exact .of_names hnames (by decide +kernel) (by decide)

/-- the repaired document has an edge to the right as well -/
theorem repairs_returnDocument :
    ∃ r, repair .standard (.object returnDocument) = .ok r ∧
      Document.Arrow r.document "Left" "Right" ∧ Document.Arrow r.document "Right" "Left" := by
  have hruns : ((repair .standard (.object returnDocument)).toOption.any fun r =>
      decide (Document.Arrow r.document "Left" "Right" ∧ Document.Arrow r.document "Right" "Left")) = true := by
    simp only [repair, mend, connectAll_eq]
    decide +kernel
  obtain ⟨r, hr, harrows⟩ := exists_ok_of_any hruns
  exact ⟨r, hr, decide_eq_true_iff.1 harrows⟩

/-- **A repair can close a loop**: in a graph without one, an edge to the right joins what an edge to the left did. -/
theorem repair_closes_loop :
    WellNamed (Document.nodesIn (.object returnDocument)) ∧
      (∀ a, ¬ Relation.TransGen (Document.Arrow (.object returnDocument)) a a) ∧
      ∃ r, repair .standard (.object returnDocument) = .ok r ∧
        ∃ a, Relation.TransGen (Document.Arrow r.document) a a := by
  refine ⟨wellNamed_returnDocument, fun a hloop => ?_, ?_⟩
  · -- the only edge leads from the right node to the left one
    have hlinks : ∀ l ∈ Document.linksIn (.object returnDocument), l.source = .text "Right" ∧ l.edge.node = "Left" := by
      decide +kernel
    have edge : ∀ {a b}, Document.Arrow (.object returnDocument) a b → a = "Right" ∧ b = "Left" := by
      intro a b hab
      obtain ⟨l, hl, hsource, hnode⟩ := Document.linked_iff_mem.1 hab.1
      exact ⟨Key.text.inj (hsource.symm.trans (hlinks l hl).1), hnode.symm.trans (hlinks l hl).2⟩
    obtain ⟨b, hab, -⟩ := Relation.TransGen.head'_iff.1 hloop
    obtain ⟨c, -, hca⟩ := Relation.TransGen.tail'_iff.1 hloop
    have hsame : "Right" = "Left" := (edge hab).1.symm.trans (edge hca).2
    exact absurd hsame (by decide)
  · obtain ⟨r, hr, hthere, hback⟩ := repairs_returnDocument
    exact ⟨r, hr, "Left", (Relation.TransGen.single hthere).tail hback⟩

/-- in that document the edge that was there before is the one that turns back -/
theorem repair_turns_back_returnDocument :
    0 ≤ BuildConfig.standard.spacingX ∧ 0 ≤ BuildConfig.standard.rowMinDx ∧
      WellNamed (Document.nodesIn (.object returnDocument)) ∧
      ∃ r, repair .standard (.object returnDocument) = .ok r ∧
        ∀ a, ¬ Relation.TransGen (Forward (.object returnDocument) r.document) a a := by
  have hspacing : 0 ≤ BuildConfig.standard.spacingX := by decide
  have hdx : 0 ≤ BuildConfig.standard.rowMinDx := by decide
  obtain ⟨r, hr, -⟩ := repairs_returnDocument
  exact ⟨hspacing, hdx, wellNamed_returnDocument, r, hr, repair_turns_back hspacing hdx wellNamed_returnDocument hr⟩

end Repair

end WorkflowGraph
