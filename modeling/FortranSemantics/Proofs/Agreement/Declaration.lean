import FortranSemantics.Analysis.Declaration
import FortranSemantics.Proofs.Agreement.Expression

/-!
# Declarations of two analyses

The declarations of a unit and of the same one in lower case enter the same names. Of the states
that two analyses go through only the implicit typings differ, which keep the letters of their
ranges as they were written.
-/

namespace FortranSemantics

open List Text

variable {n : String} {component : Bool} {info : Variable}

/-- The journal with the implicit typings in lower case. -/
def Journal.lowercase (journal : Journal) : Journal :=
  { journal with typings := Environment.lowercaseTypings journal.typings }

/-- The state with the implicit typings in lower case. -/
def Context.lowercase (ctx : Context) : Context :=
  ⟨ctx.arena, ctx.journal.lowercase⟩

/-- Whether two analyses go through the same states and give the same values. -/
abbrev Variation.Agrees {α : Type} (vary : Variation) (first second : Analysis α) : Prop :=
  Tracks vary Context.lowercase first second

/-- The setups of two analyses, which differ in the policy for generics only. -/
class Variation.Setups (vary : Variation) (setup other : Setup) : Prop where
  policy : setup.settings.policy = vary.policy
  settings : other.settings = { setup.settings with policy := vary.otherPolicy }
  library : other.library = setup.library

/-- The attributes of a declaration in lower case. -/
def DeclAttributes.lowercase (attributes : DeclAttributes) : DeclAttributes :=
  { attributes with dims := attributes.dims.map (map (·.lowercase)) }

/-- Attributes are read in any letter case. -/
theorem DeclAttributes.ofList_lowercase (list : List Tree.Attribute) :
    ofList (list.map (·.lowercase)) = (ofList list).lowercase := by
  have fold (start : DeclAttributes) :
      (list.map (·.lowercase)).foldl add start.lowercase = (list.foldl add start).lowercase := by
    induction list generalizing start with
    | nil => rfl
    | cons first rest ih =>
      have step : start.lowercase.add first.lowercase = (start.add first).lowercase := by
        cases first <;> rfl
      rw [map_cons, foldl_cons, foldl_cons, step, ih]
  exact fold {}

namespace Analysis

variable {α : Type} {vary : Variation} {setup o : Setup} {s : ScopeId} {span : Span}

/-! ## Steps -/

instance {first second : Edit α} [tracks : Tracks vary id first second] :
    vary.Agrees (liftM first : Analysis α) (liftM second) := by
  refine ⟨fun ⟨a, journal⟩ => ?_⟩
  have met : vary.Meets id Eq (first a) (second a) := tracks.meets a
  change vary.Meets Context.lowercase Eq (ofEdit first ⟨a, journal⟩)
    (ofEdit second ⟨a, journal.lowercase⟩)
  unfold ofEdit
  dsimp only
  cases ran : first a <;> cases ranToo : second a <;> rw [ran, ranToo] at met
  · obtain ⟨rfl, rfl⟩ := met
    exact ⟨rfl, rfl⟩
  · exact met
  · exact met
  · exact met

theorem note_tracks {change another : Journal → Journal}
    (commutes : ∀ journal, another journal.lowercase = (change journal).lowercase) :
    vary.Agrees (note change) (note another) :=
  ⟨fun ⟨a, journal⟩ => ⟨rfl, congrArg (Context.mk a) (commutes journal)⟩⟩

theorem journal_follows : Follows vary Context.lowercase
    (fun journal lower => lower = journal.lowercase) Analysis.journal Analysis.journal :=
  ⟨fun _ => ⟨rfl, rfl⟩⟩

instance : vary.Agrees root root :=
  ⟨fun _ => ⟨rfl, rfl⟩⟩

instance {message : String} : vary.Agrees (addLint n message span) (addLint n message span) :=
  note_tracks fun _ => rfl

instance : vary.Agrees (declareVariable s n info span) (declareVariable s n info span) :=
  Tracks.andThen fun _ => .andThen fun _ => .bind (note_tracks fun _ => rfl) fun _ => .pure _

instance {k : ScopeId → SymbolKind} : vary.Agrees (addScoped n s k) (addScoped n s k) := by
  unfold addScoped
  infer_instance

section

variable [between : vary.Setups setup o]

/-- Expressions are resolved in environments that differ in the policy only. -/
theorem environment_follows :
    Follows vary Context.lowercase vary.Environments (environment setup) (environment o) := by
  refine .bind journal_follows fun journal lower same => .pure ⟨between.policy, ?_, ?_⟩
  · rw [between.settings]
  · rw [same]
    rfl

theorem environmentThen {next more : Environment → Analysis α}
    (rest : ∀ env another, vary.Environments env another → vary.Agrees (next env) (more another)) :
    vary.Agrees (environment setup >>= next) (environment o >>= more) :=
  Follows.bind environment_follows rest

instance {tree : Tree.Expr} :
    vary.Agrees (expression setup s tree) (expression o s tree.lowercase) :=
  environmentThen fun _ _ _ => inferInstance

instance {spec : Tree.TypeSpec} :
    vary.Agrees (declaredType setup spec span s) (declaredType o spec.lowercase span s) :=
  environmentThen fun _ _ _ => inferInstance

instance : vary.Agrees (implicitType? setup s n) (implicitType? o s n) := by
  refine environmentThen fun env another environments => ?_
  rw [Environment.implicitType?_lowercase environments.typings]
  infer_instance

/-! ## Variables -/

instance {tree : Tree.Expr} : vary.Agrees (bound setup s tree) (bound o s tree.lowercase) := by
  unfold bound
  rw [Tree.Expr.lowercase_span]
  infer_instance

instance {start upper : ExprId} :
    vary.Agrees (extent setup s start upper span) (extent o s start upper span) := by
  unfold extent
  exact .andThen fun one => .ite inferInstance (environmentThen fun _ _ _ => inferInstance)

instance {spec : Tree.DimSpec} :
    vary.Agrees (dimension setup s spec) (dimension o s spec.lowercase) := by
  have place : ((spec.lowercase.upper <|> spec.lowercase.lower).map (·.span)).getD ⟨0, 0⟩ =
      ((spec.upper <|> spec.lower).map (·.span)).getD ⟨0, 0⟩ := by
    obtain ⟨lower, upper⟩ := spec
    cases lower <;> cases upper <;> simp [Tree.DimSpec.lowercase]
  unfold dimension
  dsimp only
  rw [place]
  generalize ((spec.upper <|> spec.lower).map (·.span)).getD ⟨0, 0⟩ = span
  obtain ⟨lower, upper⟩ := spec
  cases lower <;> cases upper <;> dsimp only [Tree.DimSpec.lowercase, Option.map] <;> infer_instance

instance dimensions_tracks {specs : List Tree.DimSpec} :
    vary.Agrees (dimensions setup s specs) (dimensions o s (specs.map (·.lowercase))) :=
  .mapM specs

omit between in
/-- Entities have the same dimensions. -/
theorem entityDims_follows {attributes : DeclAttributes} (entity : Tree.Entity) :
    Follows vary Context.lowercase (fun dims lower => lower = dims.map (·.lowercase))
      (entityDims attributes entity) (entityDims attributes.lowercase entity.lowercase) := by
  unfold entityDims DeclAttributes.lowercase Tree.Entity.lowercase
  cases attributes.dims with
  | none => exact .pure rfl
  | some dims =>
    dsimp only [Option.map_some]
    rw [isEmpty_map, lowercase_lowercase]
    exact .guard rfl (.pure rfl)

instance {ty : Ty} {init : Tree.Expr} : vary.Agrees (initParameter setup s n info ty init)
    (initParameter o s n info ty init.lowercase) := by
  unfold initParameter
  rw [Tree.Expr.lowercase_span]
  refine .andThen fun v => .andThen fun valueType => .andThen fun converted =>
    .andThen fun constant => ?_
  cases constant <;> infer_instance

instance {ty : Ty} {init : Tree.Expr} : vary.Agrees (initVariable setup s component n info ty init)
    (initVariable o s component n info ty init.lowercase) := by
  unfold initVariable
  rw [Tree.Expr.lowercase_span]
  infer_instance

instance {attributes : DeclAttributes} {base : Ty} {entity : Tree.Entity} :
    vary.Agrees (declareEntity setup s component attributes base entity)
      (declareEntity o s component attributes.lowercase base entity.lowercase) := by
  have n : lowercase entity.lowercase.name = lowercase entity.name :=
    lowercase_lowercase _
  have parameter : attributes.lowercase.parameter = attributes.parameter := rfl
  have wrap (ty : Ty) : attributes.lowercase.wrap ty = attributes.wrap ty := rfl
  have informed (ty : Ty) : Variable.ofAttributes attributes.lowercase ty = .ofAttributes attributes
      ty := rfl
  unfold declareEntity
  simp only [n, parameter, wrap, informed]
  refine Follows.bind (entityDims_follows entity) fun specs lower same => ?_
  subst same
  refine Tracks.andThen fun dims => ?_
  obtain ⟨written, bounds, init, span⟩ := entity
  cases init <;> cases attributes.parameter <;> dsimp only [Tree.Entity.lowercase, Option.map] <;>
    infer_instance

omit between in
theorem attributes_lowercase (decl : Tree.VarDecl) :
    DeclAttributes.ofList decl.lowercase.attributes =
    (DeclAttributes.ofList decl.attributes).lowercase :=
  DeclAttributes.ofList_lowercase decl.attributes

instance {decl : Tree.VarDecl} : vary.Agrees
    (declareEntities setup s component decl) (declareEntities o s component decl.lowercase) := by
  have spec : decl.lowercase.typeSpec = decl.typeSpec.lowercase := rfl
  have place : decl.lowercase.span = decl.span := rfl
  unfold declareEntities
  rw [attributes_lowercase, spec, place]
  exact Tracks.andThen fun base => Follows.guard rfl (Tracks.mapM decl.entities)

omit between in
theorem accessRequests_lowercase (decl : Tree.VarDecl) :
    accessRequests decl.lowercase = accessRequests decl := by
  have access : (DeclAttributes.ofList decl.attributes).lowercase.access =
      (DeclAttributes.ofList decl.attributes).access := rfl
  unfold accessRequests
  rw [attributes_lowercase, access]
  cases (DeclAttributes.ofList decl.attributes).access with
  | none => rfl
  | some access => simp [Tree.VarDecl.lowercase, Tree.Entity.lowercase]

/-! ## Attribute statements -/

instance : vary.Agrees (attributeSubject setup s n span) (attributeSubject o s n span) := by
  unfold attributeSubject
  refine .andThen fun h => ?_
  cases h with
  | some sym => infer_instance
  | none => exact .andThen fun implicit => by cases implicit <;> infer_instance

omit between in
instance {attrSpec : Tree.Attribute} {dims : List Dimension} :
    vary.Agrees (withAttribute n info attrSpec dims span)
      (withAttribute n info attrSpec.lowercase dims span) := by
  have typed : vary.Agrees (typeOfDeclared n info) (typeOfDeclared n info) := by
    unfold typeOfDeclared
    cases info.type <;> infer_instance
  cases attrSpec <;> dsimp only [withAttribute, Tree.Attribute.lowercase] <;> infer_instance

instance {attrSpec : Tree.Attribute} :
    vary.Agrees (attributeDims setup s attrSpec) (attributeDims o s attrSpec.lowercase) := by
  cases attrSpec with
  | dimension specs => exact dimensions_tracks
  | _ => exact .pure _

instance {attrSpec : Tree.Attribute} : vary.Agrees (applyAttribute setup s attrSpec span n)
    (applyAttribute o s attrSpec.lowercase span n) := by
  unfold applyAttribute
  exact .andThen fun sym => .andThen fun dims => .andThen fun k => by cases k <;> infer_instance

/-- The attribute statements of a specification part. -/
instance {decls : List Tree.Decl} : vary.Agrees
    (applyAttributes setup s decls) (applyAttributes o s (Tree.Decl.lowercaseAll decls)) := by
  have each : Tree.Decl.lowercaseAll decls = decls.map (·.lowercase) := by
    induction decls with
    | nil => rfl
    | cons first rest ih => exact congrArg _ ih
  unfold applyAttributes
  rw [each]
  refine @Tracks.forM _ _ _ _ _ _ _ _ decls fun decl => ?_
  cases decl with
  | attributeStmt attrSpec names span =>
    have named : vary.Agrees (names.forM fun n => applyAttribute setup s attrSpec span
        (lowercase n)) ((names.map lowercase).forM fun n =>
          applyAttribute o s attrSpec.lowercase span (lowercase n)) := by
      refine @Tracks.forM _ _ _ _ _ _ _ _ names fun n => ?_
      rw [lowercase_lowercase]
      infer_instance
    cases attrSpec <;> first | exact .pure _ | exact named
  | _ => exact .pure _

/-! ## Implicit typing -/

theorem addImplicit_follows {typing : ImplicitTyping} (stmt : Tree.ImplicitStmt) :
    Follows vary Context.lowercase (fun typing lower => lower = typing.lowercase)
      (addImplicit setup s typing stmt) (addImplicit o s typing.lowercase stmt.lowercase) := by
  cases stmt with
  | none => exact .pure rfl
  | rule spec ranges span =>
    have typed : vary.Agrees (declaredType setup spec span s)
        (declaredType o spec.lowercase span s) :=
      inferInstance
    exact .bind typed fun ty _ same => same ▸ .pure (ImplicitTyping.addRule_lowercase _ _ _).symm

/-- Implicit statements give the same typings. -/
theorem addImplicits_follows {typing : ImplicitTyping} (stmts : List Tree.ImplicitStmt) :
    Follows vary Context.lowercase (fun typing lower => lower = typing.lowercase)
      (stmts.foldlM (addImplicit setup s) typing)
      ((stmts.map (·.lowercase)).foldlM (addImplicit o s) typing.lowercase) := by
  induction stmts generalizing typing with
  | nil => exact .pure rfl
  | cons first rest ih =>
    rw [map_cons, foldlM_cons, foldlM_cons]
    refine .bind (addImplicit_follows first) fun next _ same => ?_
    subst same
    exact ih

instance {topLevel : Bool} {stmts : List Tree.ImplicitStmt} :
    vary.Agrees (declareImplicits setup s topLevel stmts)
      (declareImplicits o s topLevel (stmts.map (·.lowercase))) := by
  have default : defaultTyping o.settings = (defaultTyping setup.settings).lowercase := by
    rw [between.settings]
    unfold defaultTyping
    dsimp only
    split <;> rfl
  have noted {typing lower : ImplicitTyping} (same : lower = typing.lowercase) : vary.Agrees
      (note fun journal => { journal with typings := (s, typing) :: journal.typings })
      (note fun journal => { journal with typings := (s, lower) :: journal.typings }) := by
    subst same
    exact note_tracks fun _ => rfl
  unfold declareImplicits
  rw [isEmpty_map]
  refine .ite (.pure rfl) (.ite (noted default) ?_)
  exact Follows.bind (addImplicits_follows stmts) fun _ _ same => noted same

/-! ## Derived types -/

omit between in
theorem parentOf?_lowercase {ty : String} (parent : Option String) :
    parentOf? s ty span (parent.map lowercase) = parentOf? s ty span parent := by
  cases parent <;> simp [parentOf?]

omit between in
theorem typeAccess_lowercase (decl : Tree.DerivedTypeDecl) :
    typeAccess n decl.lowercase = typeAccess n decl := by
  unfold typeAccess
  obtain ⟨written, parent, access, components, procedures, generics, span⟩ := decl
  cases access with
  | none => rfl
  | some access => cases access <;> rfl

omit between in
theorem deferBinding_lowercase {ty : SymbolId} (procedure : Tree.TypeBoundProcedure) :
    deferBinding ty procedure.lowercase = deferBinding ty procedure := by
  obtain ⟨n, implementation, nopass, span⟩ := procedure
  cases implementation <;> simp [deferBinding, Tree.TypeBoundProcedure.lowercase]

omit between in
theorem deferGeneric_lowercase {ty : SymbolId} (generic : Tree.TypeBoundGeneric) :
    deferGeneric ty generic.lowercase = deferGeneric ty generic := by
  simp [deferGeneric, Tree.TypeBoundGeneric.lowercase]

instance {decl : Tree.DerivedTypeDecl} :
    vary.Agrees (declareType setup s decl) (declareType o s decl.lowercase) := by
  have n : lowercase decl.lowercase.name = lowercase decl.name :=
    lowercase_lowercase _
  have parent : decl.lowercase.parent = decl.parent.map lowercase := rfl
  have components : decl.lowercase.components = decl.components.map (·.lowercase) := rfl
  have place : decl.lowercase.span = decl.span := rfl
  have bindings (ty : SymbolId) :
      decl.lowercase.procedures.map (deferBinding ty) = decl.procedures.map (deferBinding ty) := by
    simp [Tree.DerivedTypeDecl.lowercase, deferBinding_lowercase]
  have generics (ty : SymbolId) :
      decl.lowercase.generics.map (deferGeneric ty) = decl.generics.map (deferGeneric ty) := by
    simp [Tree.DerivedTypeDecl.lowercase, deferGeneric_lowercase]
  unfold declareType
  simp only [n, parent, components, place, parentOf?_lowercase, typeAccess_lowercase, bindings,
    generics]
  infer_instance

/-! ## Dummy arguments and results -/

instance {procedure : String} :
    vary.Agrees (dummySymbol setup s procedure span n) (dummySymbol o s procedure span n) := by
  unfold dummySymbol
  refine .andThen fun h => ?_
  cases h with
  | some sym => infer_instance
  | none => exact .andThen fun implicit => by cases implicit <;> infer_instance

instance {procedure : String} : vary.Agrees (dummyArgument setup s procedure span n)
    (dummyArgument o s procedure span (lowercase n)) := by
  unfold dummyArgument
  rw [lowercase_lowercase]
  exact .andThen fun sym => .andThen fun k => by cases k <;> infer_instance

instance {function res : String} {spec : Option Tree.TypeSpec} :
    vary.Agrees (resultSymbol setup s function res spec span)
      (resultSymbol o s function res (spec.map (·.lowercase)) span) := by
  cases spec with
  | some spec =>
    exact Tracks.andThen fun h => by cases h <;> dsimp only [Option.map] <;> infer_instance
  | none =>
    refine Tracks.andThen fun h => ?_
    cases h with
    | some sym => exact .pure _
    | none => exact Tracks.andThen fun implicit => by cases implicit <;> infer_instance

instance {function res : String} {spec : Option Tree.TypeSpec} :
    vary.Agrees (resultVariable setup s function res spec span)
      (resultVariable o s function res (spec.map (·.lowercase)) span) := by
  unfold resultVariable
  exact .andThen fun sym => .andThen fun k => by cases k <;> infer_instance

instance {k : Tree.SubprogramKind} {res : Option String} {spec : Option Tree.TypeSpec} :
    vary.Agrees (procedureResult setup s n k res spec span)
      (procedureResult o s n k (res.map lowercase) (spec.map (·.lowercase)) span) := by
  have once : (res.map lowercase).map lowercase = res.map lowercase := by
    cases res <;> simp
  unfold procedureResult
  rw [once]
  cases k <;> infer_instance

instance {sym : SymbolId} {k : Tree.SubprogramKind} {args : List String} {res : Option String}
    {spec : Option Tree.TypeSpec} :
      vary.Agrees (declareSignature setup sym s n k args res spec span)
      (declareSignature o sym s n k (args.map lowercase) (res.map lowercase)
        (spec.map (·.lowercase)) span) := by
  unfold declareSignature
  infer_instance

/-! ## Modules -/

omit between in
instance {load : String → Analysis SymbolId} {first : String} {rest : List String}
    [vary.Agrees (load first) (load first)] :
    vary.Agrees (prepareImport load first rest) (prepareImport load first rest) := by
  unfold prepareImport
  cases rest <;> infer_instance

omit between in
instance {load : String → Analysis SymbolId} {path : List String}
    [∀ n, vary.Agrees (load n) (load n)] :
    vary.Agrees (resolveImport load n span path) (resolveImport load n span path) := by
  unfold resolveImport
  cases path with
  | nil => infer_instance
  | cons first rest => exact .andThen fun _ => .andThen fun h => by cases h <;> infer_instance

omit between in
/-- A module is found or loaded in both analyses. -/
instance {lib : Library} {fuel : Nat} :
    vary.Agrees (loadWithin lib span fuel n) (loadWithin lib span fuel n) := by
  induction fuel generalizing n with
  | zero => exact inferInstanceAs (vary.Agrees (broken _) (broken _))
  | succ fuel ih =>
    unfold loadWithin
    refine .andThen fun h => ?_
    cases h with
    | some sym => exact .andThen fun k => by cases k <;> infer_instance
    | none =>
      have begins : vary.Agrees (beginLoading n span) (beginLoading n span) := by
        refine Follows.bind journal_follows fun journal lower same => ?_
        subst same
        exact Follows.guard rfl (note_tracks fun _ => rfl)
      have ends : vary.Agrees (endLoading n) (endLoading n) := note_tracks fun _ => rfl
      exact .andThen fun _ => by cases lib.load n <;> infer_instance

omit between in
theorem listedEntry_lowercase {moduleScope : ScopeId} (item : Tree.UseSymbol) :
    listedEntry n moduleScope span item.lowercase = listedEntry n moduleScope span item := by
  obtain ⟨remote, written⟩ := item
  have spelling : (written.map lowercase).map genericSpelling = written.map
      genericSpelling := by
    cases written <;> simp
  unfold listedEntry Tree.UseSymbol.lowercase
  dsimp only
  rw [genericSpelling_lowercase, spelling]

instance {stmt : Tree.Use} :
    vary.Agrees (useModule setup s stmt) (useModule o s stmt.lowercase) := by
  have n : stmt.lowercase.usedModule = stmt.usedModule := lowercase_lowercase _
  have place : stmt.lowercase.span = stmt.span := rfl
  unfold useModule loadModule
  rw [n, place, between.library]
  obtain ⟨written, only, span⟩ := stmt
  refine Tracks.andThen fun sym => .andThen fun _ => .andThen fun h => ?_
  cases h <;> cases only <;> simp only [Tree.Use.lowercase, Option.map,
    Option.isSome_some, mapM_map, Function.comp_def, listedEntry_lowercase] <;> infer_instance

/-! ## Procedures and interfaces -/

omit between in
theorem interfaceName?_lowercase (header : Tree.InterfaceHeader) :
    interfaceName? header.lowercase = interfaceName? header := by
  cases header <;> simp [interfaceName?, Tree.InterfaceHeader.lowercase]

omit between in
theorem ofAccess_lowercase {access : Access} (names : List String) :
    Deferred.ofAccess access (names.map lowercase) span = Deferred.ofAccess access names span := by
  simp [Deferred.ofAccess, Function.comp_def]

omit between in
theorem subprogram_name (tree : Tree.Subprogram) : tree.lowercase.name = lowercase tree.name := by
  cases tree
  rfl

end

mutual

/-- Subprograms and all that they hold are declared alike. -/
theorem declareProcedure_tracks [vary.Setups setup o] {parent : ScopeId} {deftype : DefType} :
    ∀ (tree : Tree.Subprogram), vary.Agrees (declareProcedure setup parent deftype tree)
      (declareProcedure o parent deftype tree.lowercase)
  | ⟨k, n, args, resultType, resultName, uses, implicits, decls, body, contained, span⟩ => by
    unfold declareProcedure Tree.Subprogram.lowercase
    dsimp only
    rw [lowercase_lowercase]
    refine .andThen fun opened => .andThen fun _ => .andThen fun _ => .andThen fun root =>
      .andThen fun _ => ?_
    refine .bind (declareEach_tracks decls) fun deferred => .andThen fun _ => .andThen fun _ => ?_
    exact .bind (declareContained_tracks contained) fun _ => inferInstance

theorem declareContained_tracks [vary.Setups setup o] {parent : ScopeId} :
    ∀ (trees : List Tree.Subprogram), vary.Agrees (declareContained setup parent trees)
      (declareContained o parent (Tree.Subprogram.lowercaseAll trees))
  | [] => .pure _
  | first :: rest => .bind (declareProcedure_tracks first) fun _ => declareContained_tracks rest

theorem declareEach_tracks [vary.Setups setup o] {s : ScopeId} : ∀ (trees : List Tree.Decl),
      vary.Agrees (declareEach setup s trees) (declareEach o s (Tree.Decl.lowercaseAll trees))
  | [] => .pure _
  | first :: rest => .bind (declareOne_tracks first) fun _ =>
    .bind (declareEach_tracks rest) fun _ => .pure _

/-- A declaration of any form is made alike. -/
theorem declareOne_tracks [vary.Setups setup o] {s : ScopeId} :
    ∀ (tree : Tree.Decl), vary.Agrees (declareOne setup s tree) (declareOne o s tree.lowercase)
  | .var decl => by
    unfold declareOne Tree.Decl.lowercase
    dsimp only
    rw [accessRequests_lowercase]
    infer_instance
  | .attributeStmt attrSpec names span => by
    unfold declareOne Tree.Decl.lowercase
    cases attrSpec <;> simp only [Tree.Attribute.lowercase, ofAccess_lowercase] <;> infer_instance
  | .derivedType decl => by
    unfold declareOne Tree.Decl.lowercase
    infer_instance
  | .interface header items span => by
    unfold declareOne Tree.Decl.lowercase
    dsimp only
    rw [interfaceName?_lowercase]
    refine .bind (declareItems_tracks items) fun procs => ?_
    cases interfaceName? header <;> exact .pure _

theorem declareItems_tracks [vary.Setups setup o] {s : ScopeId} {generic : Bool} {span : Span} :
    ∀ (trees : List Tree.InterfaceItem), vary.Agrees (declareItems setup s generic span trees)
      (declareItems o s generic span (Tree.InterfaceItem.lowercaseAll trees))
  | [] => .pure _
  | .body procedure :: rest => by
    unfold declareItems Tree.InterfaceItem.lowercaseAll Tree.InterfaceItem.lowercase
    dsimp only
    rw [subprogram_name, lowercase_lowercase]
    exact .bind (declareProcedure_tracks procedure) fun _ => .bind (declareItems_tracks rest)
      fun _ => .pure _
  | .moduleProcedure names :: rest => by
    have once : (names.map lowercase).map lowercase = names.map lowercase := by simp
    unfold declareItems Tree.InterfaceItem.lowercaseAll Tree.InterfaceItem.lowercase
    dsimp only
    rw [once]
    exact Follows.guard rfl (Tracks.bind (declareItems_tracks rest) fun _ => .pure _)

end

attribute [instance] declareProcedure_tracks declareContained_tracks declareEach_tracks

variable [vary.Setups setup o]

instance {decls : List Tree.Decl} :
    vary.Agrees (declareAll setup s decls) (declareAll o s (Tree.Decl.lowercaseAll decls)) := by
  unfold declareAll
  infer_instance

instance {decls : List Tree.Decl} :
    vary.Agrees (declareBlock setup s decls) (declareBlock o s (Tree.Decl.lowercaseAll decls)) := by
  unfold declareBlock
  infer_instance

/-! ## Program units -/

instance {uses : List Tree.Use} {implicits : List Tree.ImplicitStmt} {decls : List Tree.Decl}
    {contained : List Tree.Subprogram} :
    vary.Agrees (declareParts setup s uses implicits decls contained)
      (declareParts o s (uses.map (·.lowercase)) (implicits.map (·.lowercase))
      (Tree.Decl.lowercaseAll decls) (Tree.Subprogram.lowercaseAll contained)) := by
  unfold declareParts
  infer_instance

instance {unit : Tree.Module} :
    vary.Agrees (declareModule setup unit) (declareModule o unit.lowercase) := by
  unfold declareModule Tree.Module.lowercase
  dsimp only
  rw [lowercase_lowercase]
  infer_instance

instance {unit : Tree.Program} :
    vary.Agrees (declareProgram setup unit) (declareProgram o unit.lowercase) := by
  unfold declareProgram Tree.Program.lowercase
  dsimp only
  rw [lowercase_lowercase]
  infer_instance

instance {unit : Tree.CompilationUnit} :
    vary.Agrees (declareUnit setup unit) (declareUnit o unit.lowercase) := by
  refine @Tracks.forM _ _ _ _ _ _ _ _ unit.items fun item => ?_
  cases item <;> dsimp only [Tree.ProgramUnit.lowercase] <;> infer_instance

end Analysis

end FortranSemantics
