import LayeredQuery.Proofs.Schema.BaseTypes

/-!
# Which types are a schema

A list of resource types is accepted exactly when it is well formed, and being well formed says
nothing of the order in which faults are looked for: names match their grammars and are distinct,
base types are known and in no circle, relationships have known targets, and no type declares
the identity of its root or what a type declares that it derives from.
-/

set_option autoImplicit false

namespace LayeredQuery

open ResourceType

/-! ## Names -/

def IsLetter (c : Char) : Prop :=
  'A' ≤ c ∧ c ≤ 'Z' ∨ 'a' ≤ c ∧ c ≤ 'z'

def IsDigit (c : Char) : Prop :=
  '0' ≤ c ∧ c ≤ '9'

def Spelled (isFirst isLater : Char → Prop) (name : String) : Prop :=
  ∃ first rest, name.toList = first :: rest ∧ isFirst first ∧ ∀ c ∈ rest, isLater c

def PublicName : String → Prop :=
  Spelled IsLetter fun c => IsLetter c ∨ IsDigit c ∨ c = '_' ∨ c = '-'

def ElementName : String → Prop :=
  Spelled (fun c => IsLetter c ∨ c = '_') fun c => IsLetter c ∨ IsDigit c ∨ c = '_'

theorem spelled_iff {isFirst isLater : Char → Prop} {name : String} {first : Char}
    {rest : List Char} (isName : name.toList = first :: rest) :
    Spelled isFirst isLater name ↔ isFirst first ∧ ∀ c ∈ rest, isLater c := by
  constructor
  · rintro ⟨other, later, isName', spelled⟩
    cases isName.symm.trans isName'
    exact spelled
  · exact fun spelled => ⟨first, rest, isName, spelled⟩

theorem not_spelled {isFirst isLater : Char → Prop} {name : String} (isName : name.toList = []) :
    ¬ Spelled isFirst isLater name := by
  rintro ⟨first, rest, isName', _⟩
  cases isName.symm.trans isName'

theorem isAlpha_iff (c : Char) : c.isAlpha = true ↔ IsLetter c := by
  have upper : c.isUpper = true ↔ 'A' ≤ c ∧ c ≤ 'Z' := decide_eq_true_iff
  have lower : c.isLower = true ↔ 'a' ≤ c ∧ c ≤ 'z' :=
    (Bool.and_eq_true _ _).to_iff.trans (and_congr decide_eq_true_iff decide_eq_true_iff)
  exact (Bool.or_eq_true _ _).to_iff.trans (or_congr upper lower)

theorem isAlphanum_iff (c : Char) : c.isAlphanum = true ↔ IsLetter c ∨ IsDigit c := by
  have digit : c.isDigit = true ↔ IsDigit c :=
    (Bool.and_eq_true _ _).to_iff.trans (and_congr decide_eq_true_iff decide_eq_true_iff)
  exact (Bool.or_eq_true _ _).to_iff.trans (or_congr (isAlpha_iff c) digit)

theorem isPublicName_iff (name : String) : isPublicName name = true ↔ PublicName name := by
  unfold isPublicName PublicName
  cases isName : name.toList with
  | nil => simpa using not_spelled isName
  | cons first rest => simp [spelled_iff isName, isAlpha_iff, isAlphanum_iff, or_assoc]

theorem isElementName_iff (name : String) : isElementName name = true ↔ ElementName name := by
  unfold isElementName ElementName
  cases isName : name.toList with
  | nil => simpa using not_spelled isName
  | cons first rest => simp [spelled_iff isName, isAlpha_iff, isAlphanum_iff, or_assoc]

namespace Schema

variable {types : List ResourceType}

theorem checkNames_spelled_iff {type : ResourceType} :
    checkNames type = .ok () ↔ PublicName type.name ∧ ElementName type.element ∧
      (∀ field ∈ type.fields, PublicName field.name) ∧ PublicName type.idField := by
  simp only [checkNames_iff, isPublicName_iff, isElementName_iff]

theorem build_isOk_iff_checked : (∃ schema, build types = .ok schema) ↔ Checked types :=
  ⟨fun ⟨_, built⟩ => (build_iff.mp built).1, fun checked => ⟨_, build_iff.mpr ⟨checked, rfl⟩⟩⟩

/-! ## Well-formed types -/

structure WellFormed (types : List ResourceType) : Prop where
  namesPublic : ∀ type ∈ types, PublicName type.name ∧ PublicName type.idField ∧
    ∀ field ∈ type.fields, PublicName field.name
  elementsNamed : ∀ type ∈ types, ElementName type.element
  namesDistinct : (types.map ResourceType.name).Nodup
  elementsDistinct : (types.map ResourceType.element).Nodup
  basesKnown : ∀ type ∈ types, ∀ base, type.base = some base →
    ∃ parent ∈ types, parent.name = base
  acyclic : ∀ type, ¬ Relation.TransGen (Derives types) type type
  targetsKnown : ∀ type ∈ types, ∀ field ∈ type.fields, ∀ target,
    field.kind.target? = some target → ∃ other ∈ types, other.name = target
  identityKept : ∀ type ∈ types, ∀ root, Relation.ReflTransGen (Derives types) type root →
    root.base = none → ∀ field ∈ type.fields, field.name ≠ root.idField
  declaredOnce : ∀ type ∈ types, ∀ ancestor, Relation.TransGen (Derives types) type ancestor →
    ∀ field ∈ type.fields, ∀ other ∈ ancestor.fields, other.name ≠ field.name

theorem find?_isSome_iff {name : String} :
    (find? types name).isSome = true ↔ ∃ type ∈ types, type.name = name := by
  simp [find?]

theorem checkTarget_iff {type : ResourceType} {field : Field} :
    checkTarget types type field = .ok () ↔
      ∀ target, field.kind.target? = some target → ∃ other ∈ types, other.name = target := by
  unfold checkTarget
  cases field.kind.target? with
  | none => simp
  | some target =>
    simp only [← find?_isSome_iff, Option.some.injEq, forall_eq']
    cases (find? types target).isSome <;> simp

theorem isRedeclared_iff {type : ResourceType} {above : List ResourceType} {name : String}
    (distinct : types.Pairwise fun x y => x.name ≠ y.name)
    (lineage : Lineage types type (type :: above))
    (short : (type :: above).length ≤ types.length + 1) :
    isRedeclared types type name = false ↔
      (∀ root, Relation.ReflTransGen (Derives types) type root → root.base = none →
        name ≠ root.idField) ∧
      ∀ ancestor, Relation.TransGen (Derives types) type ancestor →
        ∀ other ∈ ancestor.fields, other.name ≠ name := by
  have isRoot : (∀ root, Relation.ReflTransGen (Derives types) type root → root.base = none →
      name ≠ root.idField) ↔ name ≠ (root types type).idField := by
    rw [root_of_lineage lineage short]
    constructor
    · intro differs
      have top := (lineage.reflTransGen_root_iff distinct).mpr rfl
      exact differs _ top.1 top.2
    · intro differs root derives isRoot
      exact (lineage.reflTransGen_root_iff distinct).mp ⟨derives, isRoot⟩ ▸ differs
  rw [isRoot, isRedeclared, ResourceType.chain, lineage.chainWithin_eq types.length short]
  simp [lineage.transGen_iff_mem distinct, ResourceType.declares, Field.find?]

theorem Checked.wellFormed (checked : Checked types) : WellFormed types := by
  have distinct : types.Pairwise fun x y => x.name ≠ y.name := checked.distinct.imp And.left
  have rooted : ∀ type ∈ types, ∃ above, Lineage types type (type :: above) ∧
      (type :: above).length ≤ types.length + 1 := by
    intro type known
    obtain ⟨chain, lineage, short⟩ := checked.rooted type known
    obtain ⟨above, rfl⟩ := lineage.head
    exact ⟨above, lineage, short⟩
  constructor
  case namesPublic =>
    intro type known
    obtain ⟨isPublic, _, fields, identity⟩ := checkNames_spelled_iff.mp (checked.named type known)
    exact ⟨isPublic, identity, fields⟩
  case elementsNamed =>
    exact fun type known => (checkNames_spelled_iff.mp (checked.named type known)).2.1
  case namesDistinct => exact List.pairwise_map.mpr distinct
  case elementsDistinct => exact List.pairwise_map.mpr (checked.distinct.imp And.right)
  case basesKnown =>
    intro type known base isBase
    obtain ⟨above, lineage, _⟩ := rooted type known
    cases lineage with
    | root isRoot => cases isRoot.symm.trans isBase
    | step isBase' found _ =>
      cases isBase.symm.trans isBase'
      exact ⟨_, mem_of_find? found, name_of_find? found⟩
  case acyclic =>
    intro type circle
    obtain ⟨_, _, last⟩ := Relation.TransGen.tail'_iff.mp circle
    obtain ⟨above, lineage, _⟩ := rooted type last.1
    exact lineage.notMem_above ((lineage.transGen_iff_mem distinct).mp circle)
  case targetsKnown =>
    exact fun type known field declared =>
      checkTarget_iff.mp (checked.fields type known field declared).1
  case identityKept =>
    intro type known root derives isRoot field declared
    obtain ⟨above, lineage, short⟩ := rooted type known
    have isNew := (checked.fields type known field declared).2
    exact ((isRedeclared_iff distinct lineage short).mp isNew).1 root derives isRoot
  case declaredOnce =>
    intro type known ancestor derives field declared
    obtain ⟨above, lineage, short⟩ := rooted type known
    have isNew := (checked.fields type known field declared).2
    exact ((isRedeclared_iff distinct lineage short).mp isNew).2 ancestor derives

theorem WellFormed.checked (wellFormed : WellFormed types) : Checked types := by
  have distinct : types.Pairwise fun x y => x.name ≠ y.name :=
    List.pairwise_map.mp wellFormed.namesDistinct
  have elements : types.Pairwise fun x y => x.element ≠ y.element :=
    List.pairwise_map.mp wellFormed.elementsDistinct
  have rooted : ∀ type ∈ types,
      ∃ chain, Lineage types type chain ∧ chain.length ≤ types.length + 1 := by
    intro type known
    have passes : checkBasesFrom types type.name types.length type = .ok () := by
      rw [checkBasesFrom_eq_walkBases distinct known]
      exact walkBases_isOk distinct wellFormed.basesKnown wellFormed.acyclic nofun
    exact checkBasesFrom_iff.mp passes
  refine ⟨distinct.and elements, ?_, rooted, ?_⟩
  · intro type known
    obtain ⟨isPublic, identity, fields⟩ := wellFormed.namesPublic type known
    exact checkNames_spelled_iff.mpr
      ⟨isPublic, wellFormed.elementsNamed type known, fields, identity⟩
  · intro type known field declared
    obtain ⟨chain, lineage, short⟩ := rooted type known
    obtain ⟨above, rfl⟩ := lineage.head
    refine ⟨checkTarget_iff.mpr (wellFormed.targetsKnown type known field declared), ?_⟩
    exact (isRedeclared_iff distinct lineage short).mpr
      ⟨fun root derives isRoot => wellFormed.identityKept type known root derives isRoot field
        declared, fun ancestor derives => wellFormed.declaredOnce type known ancestor derives field
        declared⟩

/-- A list of types is accepted exactly when it is well formed. The bounded walks that decide it
are those that have no bound: the one that ends when it meets a type again, and, behind the check
of base types, the one that goes on to the root. -/
theorem build_isOk_iff_wellFormed (types : List ResourceType) :
    ((∃ schema, build types = .ok schema) ↔ WellFormed types) ∧
      (registerAll [] types = .ok () → ∀ type, ∀ known : type ∈ types,
        checkBasesFrom types type.name types.length type =
          walkBases types type.name [] ⟨type, known⟩) ∧
      (checkBases types types = .ok () → ∀ type ∈ types,
        WalksUp types type (type.chain types).tail) := by
  refine ⟨?_, ?_, ?_⟩
  · exact build_isOk_iff_checked.trans ⟨Checked.wellFormed, WellFormed.checked⟩
  · intro registered type known
    have distinct := (registerAll_iff.mp registered).2.2
    exact checkBasesFrom_eq_walkBases (distinct.imp And.left) known
  · intro based type known
    obtain ⟨chain, lineage, short⟩ :=
      checkBasesFrom_iff.mp (checkBases_iff.mp based type known)
    rw [ResourceType.chain, lineage.chainWithin_eq _ short]
    exact walksUp_of_lineage lineage

/-! ## Works and their recordings -/

namespace Works

def works : ResourceType :=
  ⟨"works", "Work", none, "key", .uuid,
    [⟨"title", .attribute .string false⟩, ⟨"authors", .toMany "people"⟩]⟩

def recordings : ResourceType :=
  ⟨"recordings", "Recording", some "works", "id", .int, [⟨"minutes", .attribute .int true⟩]⟩

def audiobooks : ResourceType :=
  ⟨"audiobooks", "Audiobook", some "recordings", "id", .int, [⟨"reader", .toOne "people"⟩]⟩

def books : ResourceType :=
  ⟨"books", "Book", some "works", "id", .int, [⟨"pages", .attribute .int false⟩]⟩

def people : ResourceType :=
  ⟨"people", "Person", none, "id", .int, [⟨"name", .attribute .string false⟩]⟩

def declared : List ResourceType := [audiobooks, recordings, people, works, books]

end Works

theorem build_isOk_iff_wellFormed_works :
    WellFormed Works.declared ∧
      (registerAll [] Works.declared = .ok () ∧
        ∃ known, walkBases Works.declared "audiobooks" [] ⟨Works.audiobooks, known⟩ =
          .ok ()) ∧
      checkBases Works.declared Works.declared = .ok () ∧
      WalksUp Works.declared Works.audiobooks [Works.recordings, Works.works] := by
  obtain ⟨accepted, walks, ends⟩ := build_isOk_iff_wellFormed Works.declared
  have known : Works.audiobooks ∈ Works.declared := List.mem_cons_self
  have registered : registerAll [] Works.declared = .ok () := rfl
  have based : checkBases Works.declared Works.declared = .ok () := rfl
  refine ⟨accepted.mp ⟨_, rfl⟩, ⟨registered, known, ?_⟩, based, ends based _ known⟩
  exact (walks registered Works.audiobooks known).symm.trans (rfl)

/-- A circle that does not go through the type it is found from. -/
example : build [⟨"loans", "Loan", some "copies", "id", .int, []⟩,
    ⟨"copies", "Copy", some "items", "id", .int, []⟩,
    ⟨"items", "Item", some "copies", "id", .int, []⟩] = .error (.cyclicInheritance "loans") :=
  rfl

end Schema

end LayeredQuery
