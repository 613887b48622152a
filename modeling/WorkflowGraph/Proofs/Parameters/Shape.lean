import WorkflowGraph.Parameters.Shape
import WorkflowGraph.Proofs.Table
import WorkflowGraph.Proofs.Text.Case
import WorkflowGraph.Proofs.Value
/-
Parameters in good shape. What the corrections of a type bring about is a list of shapes: a parameter does not stand
under another name while its proper name has no value, and a value that is given is of the right kind. Corrected
parameters have all shapes of their type, the defaults of the type keep them, and parameters that have them need no
correction.

- `shaped_fixShapes`, `fixShapes_of_shaped`: what a correction brings about, and when there is nothing to correct.
- `fixShapes_again`: a second correction.
- `Shaped.fill`, `fill_fill`: filling up.
-/
namespace WorkflowGraph

namespace Parameters

/-! ## Shapes -/

/-- what parameters are to be like in one respect -/
inductive Shape where
  /-- a parameter is not given under the old name while the new one has no value -/
  | named (old new : String)
  /-- the value of a parameter is of a kind, if it is given -/
  | fits (name : String) (kind : Value → Bool)

namespace Shape

def names : Shape → List String
  | named old new => [old, new]
  | fits name _ => [name]

def Holds (params : Fields) : Shape → Prop
  | named old new => Table.has (.text old) params = true → hasValue (Value.field new params) = true
  | fits name kind => ∀ v, Table.get? (.text name) params = some v → kind v = true

/-- defaults that do not spoil a shape: they give no parameter under its old name, and only values of the kind -/
def allows (defaults : Fields) : Shape → Bool
  | named old _ => !Table.has (.text old) defaults
  | fits name kind => (Table.get? (.text name) defaults).all kind

end Shape

/-- a list is a value without its container -/
def isWrapped (v : Value) : Bool := !v.isList

def isRecipients : Value → Bool
  | .null => true
  | .list _ => true
  | _ => false

def isMethod : Value → Bool
  | .text s => decide (Text.upper s = s)
  | _ => true

def isValueKinds : Value → Bool
  | .object vals => vals.isEmpty || vals.all fun (k, _) => valueKinds.any fun w => k == .text w
  | _ => true

/-- the shapes that the fix of a short type brings about -/
def fixedShapes : String → List Shape
  | "switch" => [.named "value" "value1", .fits "rules" isWrapped]
  | "emailSend" => [.named "sendTo" "toRecipients", .named "toEmail" "toRecipients", .named "to" "toRecipients",
      .fits "toRecipients" isRecipients]
  | "httpRequest" => [.named "endpoint" "url", .fits "method" isMethod]
  | "cron" => [.named "rule" "triggerTimes"]
  | "set" => [.fits "values" isValueKinds]
  | "if" => [.fits "conditions" isWrapped]
  | _ => []

/-- the shapes of a short type -/
def shapes (short : String) : List Shape :=
  fixedShapes short ++
    if Table.has (.text "options") (defaults short) then [.fits "options" Value.isObject] else []

/-- parameters have all shapes of a short type -/
def Shaped (short : String) (params : Fields) : Prop := ∀ shape ∈ shapes short, shape.Holds params

/-! ## Changing parameters -/

/-- a shape is about the parameters that it names only -/
theorem Shape.Holds.congr {shape : Shape} {params params' : Fields} (h : shape.Holds params)
    (hsame : ∀ name ∈ shape.names, Table.get? (.text name) params' = Table.get? (.text name) params) :
    shape.Holds params' := by
  cases shape with
  | named old new =>
    simp only [names, List.forall_mem_cons] at hsame
    obtain ⟨hold, hnew, -⟩ := hsame
    intro hhas
    rw [Value.field, hnew]
    apply h
    rw [Table.has_iff_get?, ← hold, ← Table.has_iff_get?]
    exact hhas
  | fits name kind =>
    intro v hv
    apply h
    rw [← hsame name List.mem_cons_self]
    exact hv

theorem Shape.Holds.put {shape : Shape} {params : Fields} (h : shape.Holds params) {name : String}
    (hname : name ∉ shape.names) (v : Value) : shape.Holds (Table.put (.text name) v params) := by
  apply h.congr
  intro other hother
  have hne : name ≠ other := by
    rintro rfl
    exact hname hother
  rw [Table.get?_put, Key.text_beq_text, decide_eq_false hne]
  rfl

/-- a value of the kind gives a parameter its shape -/
theorem holds_fits_put {name : String} {kind : Value → Bool} {v : Value} (h : kind v = true) (params : Fields) :
    (Shape.fits name kind).Holds (Table.put (.text name) v params) := by
  intro w hw
  rw [Table.get?_put, BEq.rfl, if_pos rfl, Option.some.injEq] at hw
  rw [← hw]
  exact h

/-- a name with a value needs no other -/
theorem holds_named_put {old new : String} {v : Value} (h : hasValue v = true) (params : Fields) :
    (Shape.named old new).Holds (Table.put (.text new) v params) := by
  intro _
  rw [Value.field, Table.get?_put, BEq.rfl, if_pos rfl]
  exact h

/-! ## Steps of a correction -/

/-- a step keeps a shape -/
def Keeps (step : Fixed → Fixed) (shape : Shape) : Prop :=
  ∀ f, Table.Distinct f.params → shape.Holds f.params → shape.Holds (step f).params

/-- a step brings about some shapes, and does nothing where they hold already -/
structure Brings (step : Fixed → Fixed) (goal : List Shape) : Prop where
  distinct : ∀ f, Table.Distinct f.params → Table.Distinct (step f).params
  shaped : ∀ f, Table.Distinct f.params → ∀ shape ∈ goal, shape.Holds (step f).params
  idle : ∀ f, (∀ shape ∈ goal, shape.Holds f.params) → step f = f

theorem brings_id : Brings id [] where
  distinct := fun _ h => h
  shaped := by simp
  idle := fun _ _ => rfl

/-- steps one after the other bring about the shapes of both, when the second keeps those of the first -/
theorem Brings.comp {step step' : Fixed → Fixed} {goal goal' : List Shape} (h : Brings step goal)
    (h' : Brings step' goal') (hkeeps : ∀ shape ∈ goal, Keeps step' shape) :
    Brings (fun f => step' (step f)) (goal ++ goal') where
  distinct := fun f hd => h'.distinct _ (h.distinct f hd)
  shaped := by
    intro f hd shape hshape
    rcases List.mem_append.1 hshape with hshape | hshape
    · exact hkeeps shape hshape _ (h.distinct f hd) (h.shaped f hd shape hshape)
    · exact h'.shaped _ (h.distinct f hd) shape hshape
  idle := by
    intro f hf
    rw [List.forall_mem_append] at hf
    rw [h.idle f hf.1, h'.idle f hf.2]

/-- a step that replaces the value of one parameter by one of a kind, unless it is of that kind -/
def Mends (step : Fixed → Fixed) (name : String) (kind : Value → Bool) : Prop :=
  ∀ f, ((Shape.fits name kind).Holds f.params ∧ step f = f) ∨
    ∃ w v report, Table.get? (.text name) f.params = some w ∧ kind w = false ∧ kind v = true ∧
      step f = f.set name v report

theorem Mends.brings {step : Fixed → Fixed} {name : String} {kind : Value → Bool} (h : Mends step name kind) :
    Brings step [.fits name kind] where
  distinct := by
    intro f hd
    rcases h f with ⟨-, hstep⟩ | ⟨w, v, report, -, -, -, hstep⟩
    · rw [hstep]
      exact hd
    · rw [hstep]
      exact Table.distinct_put hd
  shaped := by
    intro f hd
    rw [List.forall_mem_singleton]
    rcases h f with ⟨hholds, hstep⟩ | ⟨w, v, report, -, -, hv, hstep⟩
    · rw [hstep]
      exact hholds
    · rw [hstep]
      exact holds_fits_put hv _
  idle := by
    intro f hf
    rw [List.forall_mem_singleton] at hf
    rcases h f with ⟨-, hstep⟩ | ⟨w, v, report, hw, hkind, -, -⟩
    · exact hstep
    · have hfits := hf w hw
      rw [hkind] at hfits
      cases hfits

theorem Mends.keeps {step : Fixed → Fixed} {name : String} {kind : Value → Bool} (h : Mends step name kind)
    {shape : Shape} (hname : name ∉ shape.names) : Keeps step shape := by
  intro f _ hholds
  rcases h f with ⟨-, hstep⟩ | ⟨w, v, report, -, -, -, hstep⟩
  · rw [hstep]
    exact hholds
  · rw [hstep]
    exact hholds.put hname v

/-! ## Names -/

/-- parameters with a value moved from one name to another -/
def moved (old new : String) (v : Value) (params : Fields) : Fields :=
  Table.put (.text new) v (Table.remove (.text old) params)

theorem get?_moved {old new : String} {params : Fields} (hd : Table.Distinct params) (v : Value) (name : String) :
    Table.get? (.text name) (moved old new v params) =
      if new = name then some v else if old = name then none else Table.get? (.text name) params := by
  rw [moved, Table.get?_put, Table.get?_remove hd, Key.text_beq_text, Key.text_beq_text]
  by_cases hnew : new = name
  · simp [hnew]
  · by_cases hold : old = name
    · simp [hnew, hold]
    · simp [hnew, hold]

/-- a step that moves a value from one name to another, when it stands under the old one only -/
def Moves (step : Fixed → Fixed) (old new : String) : Prop :=
  ∀ f, ((Shape.named old new).Holds f.params ∧ step f = f) ∨
    (f.has old = true ∧ hasValue (f.get new) = false ∧
      ∃ v reports, step f = ⟨moved old new v f.params, reports⟩)

theorem Moves.brings {step : Fixed → Fixed} {old new : String} (h : Moves step old new) (hne : old ≠ new) :
    Brings step [.named old new] where
  distinct := by
    intro f hd
    rcases h f with ⟨-, hstep⟩ | ⟨-, -, v, reports, hstep⟩
    · rw [hstep]
      exact hd
    · rw [hstep]
      exact Table.distinct_put (Table.distinct_remove _ hd)
  shaped := by
    intro f hd
    rw [List.forall_mem_singleton]
    rcases h f with ⟨hholds, hstep⟩ | ⟨-, -, v, reports, hstep⟩
    · rw [hstep]
      exact hholds
    · rw [hstep]
      intro hhas
      rw [Table.has_iff_get?, get?_moved hd, if_neg (Ne.symm hne), if_pos rfl] at hhas
      cases hhas
  idle := by
    intro f hf
    rw [List.forall_mem_singleton] at hf
    rcases h f with ⟨-, hstep⟩ | ⟨hhas, hnone, -⟩
    · exact hstep
    · have hvalue : hasValue (f.get new) = true := hf hhas
      rw [hnone] at hvalue
      cases hvalue

/-- moving one more value does not spoil the name of another -/
theorem Moves.keeps {step : Fixed → Fixed} {old old' new : String} (h : Moves step old new) (hne : old' ≠ old)
    (hne' : old' ≠ new) : Keeps step (.named old' new) := by
  intro f hd hholds
  rcases h f with ⟨-, hstep⟩ | ⟨-, hnone, v, reports, hstep⟩
  · rw [hstep]
    exact hholds
  · rw [hstep]
    intro hhas
    rw [Table.has_iff_get?, get?_moved hd, if_neg (Ne.symm hne'), if_neg (Ne.symm hne), ← Table.has_iff_get?] at hhas
    have hvalue : hasValue (f.get new) = true := hholds hhas
    rw [hnone] at hvalue
    cases hvalue

/-- what decides whether a value is moved -/
theorem holds_named_of_not {f : Fixed} {old new : String} (h : ¬ (f.has old && !hasValue (f.get new)) = true) :
    (Shape.named old new).Holds f.params := by
  intro hhas
  rw [← Bool.not_eq_false]
  intro hnone
  apply h
  rw [Bool.and_eq_true, Bool.not_eq_true']
  exact ⟨hhas, hnone⟩

theorem moves_rename (old new : String) : Moves (fun f => f.rename old new) old new := by
  intro f
  unfold Fixed.rename
  dsimp only
  split
  · rename_i h
    rw [Bool.and_eq_true, Bool.not_eq_true'] at h
    exact Or.inr ⟨h.1, h.2, _, _, rfl⟩
  · rename_i h
    exact Or.inl ⟨holds_named_of_not h, rfl⟩

theorem moves_fixCron : Moves fixCron "rule" "triggerTimes" := by
  intro f
  unfold fixCron
  split
  · rename_i h
    rw [Bool.and_eq_true, Bool.not_eq_true'] at h
    exact Or.inr ⟨h.1, h.2, _, _, rfl⟩
  · rename_i h
    exact Or.inl ⟨holds_named_of_not h, rfl⟩

/-! ## Values -/

/-- a value that is given is found under its name -/
theorem get?_of_get {f : Fixed} {name : String} {v : Value} (h : f.get name = v) (hv : v ≠ .null) :
    Table.get? (.text name) f.params = some v := by
  unfold Fixed.get Value.field at h
  cases hget : Table.get? (.text name) f.params with
  | none =>
    rw [hget] at h
    exact absurd h.symm hv
  | some w =>
    rw [hget] at h
    rw [← h]
    rfl

theorem holds_fits {f : Fixed} {name : String} {kind : Value → Bool} (h : kind (f.get name) = true) :
    (Shape.fits name kind).Holds f.params := by
  intro v hv
  unfold Fixed.get Value.field at h
  rw [hv] at h
  exact h

def wrapRules (f : Fixed) : Fixed :=
  match f.get "rules" with
  | .list rules => f.set "rules" (object [("rules", .list rules)]) "rules list wrapped"
  | _ => f

theorem mends_wrapRules : Mends wrapRules "rules" isWrapped := by
  intro f
  unfold wrapRules
  split
  · rename_i rules hrules
    exact Or.inr ⟨_, _, _, get?_of_get hrules (by simp), rfl, rfl, rfl⟩
  · rename_i hother
    refine Or.inl ⟨holds_fits ?_, rfl⟩
    cases hget : f.get "rules" with
    | list rules => exact absurd hget (hother rules)
    | _ => rfl

theorem mends_fixIf : Mends fixIf "conditions" isWrapped := by
  intro f
  unfold fixIf
  split
  · rename_i conditions hconditions
    exact Or.inr ⟨_, _, _, get?_of_get hconditions (by simp), rfl, rfl, rfl⟩
  · rename_i hother
    refine Or.inl ⟨holds_fits ?_, rfl⟩
    cases hget : f.get "conditions" with
    | list conditions => exact absurd hget (hother conditions)
    | _ => rfl

def listRecipients (f : Fixed) : Fixed :=
  match f.get "toRecipients" with
  | .text s => f.set "toRecipients" (.list (recipients s)) "scalar recipient -> list"
  | .null => f
  | .list _ => f
  | v => f.set "toRecipients" (.list [.text v.toText]) "scalar recipient -> list"

theorem mends_listRecipients : Mends listRecipients "toRecipients" isRecipients := by
  intro f
  unfold listRecipients
  cases hget : f.get "toRecipients" with
  | null => exact Or.inl ⟨holds_fits (by rw [hget]; rfl), rfl⟩
  | list items => exact Or.inl ⟨holds_fits (by rw [hget]; rfl), rfl⟩
  | _ => exact Or.inr ⟨_, _, _, get?_of_get hget (by simp), rfl, rfl, rfl⟩

/-- recipients that are listed are a value, whatever was given for them -/
theorem keeps_listRecipients (old : String) : Keeps listRecipients (.named old "toRecipients") := by
  intro f _ hholds
  unfold listRecipients
  cases f.get "toRecipients" with
  | null => exact hholds
  | list items => exact hholds
  | _ => exact holds_named_put rfl f.params

def upperMethod (f : Fixed) : Fixed :=
  match f.get "method" with
  | .text s => if Text.upper s = s then f else f.set "method" (Text.upper s) "method upper-cased"
  | _ => f

theorem isMethod_text (s : String) : isMethod (.text s) = true ↔ Text.upper s = s := by simp [isMethod]

theorem mends_upperMethod : Mends upperMethod "method" isMethod := by
  intro f
  unfold upperMethod
  cases hget : f.get "method" with
  | text s =>
    dsimp only
    by_cases hupper : Text.upper s = s
    · rw [if_pos hupper]
      refine Or.inl ⟨holds_fits ?_, rfl⟩
      rw [hget, isMethod_text]
      exact hupper
    · rw [if_neg hupper]
      refine Or.inr ⟨.text s, .text (Text.upper s), _, get?_of_get hget (by simp), ?_, ?_, rfl⟩
      · rw [← Bool.not_eq_true, isMethod_text]
        exact hupper
      · rw [isMethod_text]
        exact Text.upper_upper s
  | _ => exact Or.inl ⟨holds_fits (by rw [hget]; rfl), rfl⟩

theorem mends_fixSet : Mends fixSet "values" isValueKinds := by
  intro f
  unfold fixSet
  cases hget : f.get "values" with
  | object vals =>
    dsimp only
    split
    · rename_i hkinds
      exact Or.inl ⟨holds_fits (by rw [hget]; exact hkinds), rfl⟩
    · rename_i hkinds
      rw [Bool.not_eq_true] at hkinds
      exact Or.inr ⟨_, _, _, get?_of_get hget (by simp), hkinds, by rfl, rfl⟩
  | _ => exact Or.inl ⟨holds_fits (by rw [hget]; rfl), rfl⟩

theorem mends_fixOptions {short : String} (h : Table.has (.text "options") (defaults short) = true) :
    Mends (fixOptions short) "options" Value.isObject := by
  intro f
  unfold fixOptions
  rw [h, Bool.and_true]
  cases hget : Table.get? (.text "options") f.params with
  | none =>
    have hhas : f.has "options" = false := by
      rw [Fixed.has, Table.has_iff_get?, hget]
      rfl
    rw [hhas]
    refine Or.inl ⟨?_, rfl⟩
    intro v hv
    rw [hget] at hv
    cases hv
  | some v =>
    have hhas : f.has "options" = true := by
      rw [Fixed.has, Table.has_iff_get?, hget]
      rfl
    have hvalue : f.get "options" = v := by
      rw [Fixed.get, Value.field, hget]
      rfl
    rw [hhas, hvalue, Bool.true_and]
    cases hobject : v.isObject with
    | true =>
      refine Or.inl ⟨holds_fits ?_, rfl⟩
      rw [hvalue]
      exact hobject
    | false => exact Or.inr ⟨v, _, _, rfl, hobject, rfl, rfl⟩

/-! ## The corrections -/

theorem brings_fixSwitch : Brings fixSwitch (fixedShapes "switch") := by
  apply ((moves_rename _ _).brings (by decide)).comp mends_wrapRules.brings
  rw [List.forall_mem_singleton]
  exact mends_wrapRules.keeps (by decide)

theorem brings_fixHttp : Brings fixHttp (fixedShapes "httpRequest") := by
  apply ((moves_rename _ _).brings (by decide)).comp mends_upperMethod.brings
  rw [List.forall_mem_singleton]
  exact mends_upperMethod.keeps (by decide)

theorem brings_fixEmail : Brings fixEmail (fixedShapes "emailSend") := by
  have hfirst := (moves_rename "sendTo" "toRecipients").brings (by decide)
  have hsecond := hfirst.comp ((moves_rename "toEmail" "toRecipients").brings (by decide)) (by
    rw [List.forall_mem_singleton]
    exact (moves_rename _ _).keeps (by decide) (by decide))
  have hthird := hsecond.comp ((moves_rename "to" "toRecipients").brings (by decide)) (by
    simp only [List.cons_append, List.nil_append, List.forall_mem_cons]
    refine ⟨(moves_rename _ _).keeps (by decide) (by decide), (moves_rename _ _).keeps (by decide) (by decide), ?_⟩
    simp)
  apply hthird.comp mends_listRecipients.brings
  simp only [List.cons_append, List.nil_append, List.forall_mem_cons]
  refine ⟨keeps_listRecipients _, keeps_listRecipients _, keeps_listRecipients _, ?_⟩
  simp

/-- the fix of a short type, if there is one -/
theorem brings_fixOf (short : String) :
    Brings (fun f => ((fixOf? short).map (· f)).getD f) (fixedShapes short) := by
  unfold fixedShapes
  split
  · exact brings_fixSwitch
  · exact brings_fixEmail
  · exact brings_fixHttp
  · exact moves_fixCron.brings (by decide)
  · exact mends_fixSet.brings
  · exact mends_fixIf.brings
  · -- no shapes, and no fix either
    have hnone : fixOf? short = none := by
      unfold fixOf?
      split <;> first | rfl | contradiction
    rw [hnone]
    exact brings_id

/-- the fix of a type is not about options or code -/
theorem not_mem_names_of_fixed (short : String) :
    ∀ shape ∈ fixedShapes short, ∀ name ∈ "options" :: Node.codeFields, name ∉ shape.names := by
  unfold fixedShapes
  split
  all_goals simp [Shape.names, Node.codeFields]

/-- no shape is about code -/
theorem code_not_mem_names (short : String) : ∀ shape ∈ shapes short, ∀ key ∈ Node.codeFields, key ∉ shape.names := by
  intro shape hshape key hkey
  rcases List.mem_append.1 hshape with hfixed | hoptions
  · exact not_mem_names_of_fixed short shape hfixed key (List.mem_cons_of_mem _ hkey)
  · split at hoptions
    · rw [List.mem_singleton.1 hoptions]
      revert key
      decide
    · cases hoptions

theorem brings_fixShapes (short : String) :
    Brings (fun f => fixOptions short (((fixOf? short).map (· f)).getD f)) (shapes short) := by
  unfold shapes
  by_cases hoptions : Table.has (.text "options") (defaults short) = true
  · rw [if_pos hoptions]
    apply (brings_fixOf short).comp (mends_fixOptions hoptions).brings
    intro shape hshape
    exact (mends_fixOptions hoptions).keeps (not_mem_names_of_fixed short shape hshape _ List.mem_cons_self)
  · rw [if_neg hoptions, List.append_nil]
    have hidle : ∀ f, fixOptions short f = f := by
      intro f
      rw [fixOptions, Bool.eq_false_of_not_eq_true hoptions]
      simp
    simp only [hidle]
    exact brings_fixOf short

/-- **Corrected parameters have all shapes of their type.** -/
theorem shaped_fixShapes {params : Fields} (hd : Table.Distinct params) (short : String) :
    Shaped short (fixShapes short params).params := (brings_fixShapes short).shaped ⟨params, []⟩ hd

theorem distinct_fixShapes {params : Fields} (hd : Table.Distinct params) (short : String) :
    Table.Distinct (fixShapes short params).params := (brings_fixShapes short).distinct ⟨params, []⟩ hd

/-- **Where the shapes hold there is nothing to correct.** -/
theorem fixShapes_of_shaped {short : String} {params : Fields} (h : Shaped short params) :
    fixShapes short params = ⟨params, []⟩ := (brings_fixShapes short).idle ⟨params, []⟩ h

/-- **Parameters are corrected once.** A second correction changes nothing and has nothing to report. -/
theorem fixShapes_again {params : Fields} (hd : Table.Distinct params) (tag : String) :
    fixShapes (Catalog.shortType tag) (fixShapes (Catalog.shortType tag) params).params =
      ⟨(fixShapes (Catalog.shortType tag) params).params, []⟩ :=
  fixShapes_of_shaped (shaped_fixShapes hd (Catalog.shortType tag))

/-- two recipients under an old name, with a third one under another -/
def oldRecipients : Fields := [(.text "sendTo", "ann@x.io, bob@x.io"), (.text "to", "cid@x.io")]

theorem fixShapes_again_oldRecipients :
    Table.Distinct oldRecipients ∧
      fixShapes (Catalog.shortType "n8n-nodes-base.emailSend") oldRecipients =
        ⟨[(.text "to", "cid@x.io"), (.text "toRecipients", .list ["ann@x.io", "bob@x.io"])],
          ["sendTo->toRecipients", "scalar recipient -> list"]⟩ ∧
      fixShapes (Catalog.shortType "n8n-nodes-base.emailSend")
          (fixShapes (Catalog.shortType "n8n-nodes-base.emailSend") oldRecipients).params =
        ⟨(fixShapes (Catalog.shortType "n8n-nodes-base.emailSend") oldRecipients).params, []⟩ := by
  have hd : Table.Distinct oldRecipients := by simp [Table.Distinct, oldRecipients, Key.text_beq_text]
  exact ⟨hd, by rfl, fixShapes_again hd _⟩

/-! ## Filling up -/

/-- the defaults of a short type, unless it has none -/
theorem defaults_cases (short : String) :
    defaults short = [] ∨ ∃ e ∈ required, e.1 = short ∧ defaults short = e.2.map fun (name, v) => (.text name, v) := by
  unfold defaults
  cases hlookup : required.lookup short with
  | none => exact Or.inl rfl
  | some fields =>
    obtain ⟨before, after, hrequired, -⟩ := List.lookup_eq_some_iff.1 hlookup
    refine Or.inr ⟨(short, fields), ?_, rfl, rfl⟩
    rw [hrequired]
    exact List.mem_append_right _ List.mem_cons_self

theorem nodup_required : ∀ e ∈ required, (e.2.map (·.1)).Nodup := by decide +kernel

theorem distinct_defaults (short : String) : Table.Distinct (defaults short) := by
  rcases defaults_cases short with hnone | ⟨e, he, -, hfields⟩
  · rw [hnone]
    exact Table.distinct_nil
  · rw [hfields, Table.Distinct, List.pairwise_map]
    have hnodup := nodup_required e he
    rw [List.Nodup, List.pairwise_map] at hnodup
    apply hnodup.imp
    intro a b hab
    rw [Key.text_beq_text, decide_eq_false hab]

theorem allows_required : (required.all fun e => (shapes e.1).all (·.allows (defaults e.1))) = true := by
  decide +kernel

/-- the defaults of a type spoil none of its shapes -/
theorem allows_defaults (short : String) : ∀ shape ∈ shapes short, shape.allows (defaults short) = true := by
  intro shape hshape
  rcases defaults_cases short with hnone | ⟨e, he, rfl, -⟩
  · rw [hnone]
    cases shape with
    | named old new => rfl
    | fits name kind => rfl
  · have hall := allows_required
    rw [List.all_eq_true] at hall
    have hallows := hall e he
    rw [List.all_eq_true] at hallows
    exact hallows shape hshape

theorem Shape.Holds.putAll {shape : Shape} {defaults given : Fields} (h : shape.Holds given)
    (hallows : shape.allows defaults = true) (hd : Table.Distinct given) :
    shape.Holds (Table.putAll defaults given) := by
  cases shape with
  | named old new =>
    intro hhas
    rw [allows, Bool.not_eq_true'] at hallows
    rw [Table.has_putAll, hallows, Bool.false_or] at hhas
    have hvalue : hasValue (Value.field new given) = true := h hhas
    rw [Value.field, Table.get?_putAll _ _ hd]
    rw [Value.field] at hvalue
    cases hnew : Table.get? (.text new) given with
    | none =>
      rw [hnew] at hvalue
      cases hvalue
    | some v =>
      rw [hnew] at hvalue
      exact hvalue
  | fits name kind =>
    intro v hv
    rw [Table.get?_putAll _ _ hd, Option.or_eq_some_iff] at hv
    rcases hv with hgiven | ⟨-, hdefault⟩
    · exact h v hgiven
    · rw [allows, hdefault] at hallows
      exact hallows

/-- filling up keeps the shapes -/
theorem Shaped.fill {short : String} {given : Fields} (h : Shaped short given) (hd : Table.Distinct given) :
    Shaped short (fill short given) := by
  intro shape hshape
  exact (h shape hshape).putAll (allows_defaults short shape hshape) hd

theorem fill_fill {given : Fields} (hd : Table.Distinct given) (short : String) :
    fill short (fill short given) = fill short given := Table.putAll_putAll (distinct_defaults short) hd

end Parameters

end WorkflowGraph
