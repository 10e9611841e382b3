import LayeredQuery.Proofs.Schema.Acceptance

/-!
# The faults that are reported

A list of types that is refused has the fault that it is refused for: the names in the error are
those of the list, and what the error says of them is so. The error for a circle of base types says
less than that its type is part of the circle. A walk that goes in circles is blamed on the type it
started from, which is the first one in the list that does not come to a root; it may be on the
circle, or only lead into it.
-/

set_option autoImplicit false

namespace LayeredQuery

open ResourceType

/-- What the errors for a list of types say of it. -/
inductive SchemaError.Describes (types : List ResourceType) : SchemaError → Prop
  | publicName {type : ResourceType} {name : String} (known : type ∈ types)
      (isUsed : name = type.name ∨ name = type.idField ∨ ∃ field ∈ type.fields, field.name = name)
      (misspelled : ¬ PublicName name) : Describes types (.invalidName name)
  | elementName {type : ResourceType} (known : type ∈ types)
      (misspelled : ¬ ElementName type.element) : Describes types (.invalidName type.element)
  | duplicateResourceType {name : String}
      (repeated : 2 ≤ (types.map ResourceType.name).count name) :
      Describes types (.duplicateResourceType name)
  | duplicateElementType {element : String}
      (repeated : 2 ≤ (types.map ResourceType.element).count element) :
      Describes types (.duplicateElementType element)
  | unknownBaseType {type : ResourceType} {base : String} (known : type ∈ types)
      (isBase : type.base = some base) (missing : ∀ other ∈ types, other.name ≠ base) :
      Describes types (.unknownBaseType type.name base)
  | cyclicInheritance {before after : List ResourceType} {type other : ResourceType}
      (isFirst : types = before ++ type :: after)
      (rooted : ∀ earlier ∈ before, ∃ chain, Lineage types earlier chain)
      (leads : Relation.ReflTransGen (Derives types) type other)
      (circle : Relation.TransGen (Derives types) other other) :
      Describes types (.cyclicInheritance type.name)
  | unknownRelationshipTarget {type : ResourceType} {field : Field} {target : String}
      (known : type ∈ types) (declared : field ∈ type.fields)
      (isTarget : field.kind.target? = some target)
      (missing : ∀ other ∈ types, other.name ≠ target) :
      Describes types (.unknownRelationshipTarget type.name field.name target)
  | identityField {type root : ResourceType} {field : Field} (known : type ∈ types)
      (declared : field ∈ type.fields)
      (derives : Relation.ReflTransGen (Derives types) type root) (isRoot : root.base = none)
      (isIdentity : field.name = root.idField) :
      Describes types (.duplicateField type.name field.name)
  | inheritedField {type ancestor : ResourceType} {field other : Field} (known : type ∈ types)
      (declared : field ∈ type.fields)
      (derives : Relation.TransGen (Derives types) type ancestor)
      (inherited : other ∈ ancestor.fields) (sameName : other.name = field.name) :
      Describes types (.duplicateField type.name field.name)

namespace Schema

variable {types : List ResourceType} {fault : SchemaError}

theorem exists_refused {α : Type} {check : α → Except SchemaError Unit}
    {checkAll : List α → Except SchemaError Unit} (passes : checkAll [] = .ok ())
    (steps : ∀ item rest, checkAll (item :: rest) =
      match check item with
      | .error e => .error e
      | .ok () => checkAll rest)
    {items : List α} (failed : checkAll items = .error fault) :
    ∃ before item after, items = before ++ item :: after ∧ check item = .error fault ∧
      ∀ earlier ∈ before, check earlier = .ok () := by
  induction items with
  | nil => cases passes.symm.trans failed
  | cons item rest ih =>
    rw [steps] at failed
    cases checked : check item with
    | error e =>
      rw [checked] at failed
      cases failed
      exact ⟨[], item, rest, rfl, checked, nofun⟩
    | ok _ =>
      rw [checked] at failed
      obtain ⟨before, found, after, rfl, refused, earlier⟩ := ih failed
      exact ⟨item :: before, found, after, rfl, refused,
        List.forall_mem_cons.mpr ⟨checked, earlier⟩⟩

/-! ## Names -/

theorem checkPublicName_refused {name : String} (failed : checkPublicName name = .error fault) :
    fault = .invalidName name ∧ ¬ PublicName name := by
  rw [← isPublicName_iff]
  unfold checkPublicName at failed
  split at failed
  · cases failed
  · rename_i misspelled
    cases failed
    exact ⟨rfl, misspelled⟩

theorem checkNames_describes {type : ResourceType} (known : type ∈ types)
    (failed : checkNames type = .error fault) : fault.Describes types := by
  unfold checkNames at failed
  split at failed
  · rename_i refused
    cases failed
    obtain ⟨rfl, misspelled⟩ := checkPublicName_refused refused
    exact .publicName known (.inl rfl) misspelled
  · split at failed
    · obtain ⟨before, name, after, isName, refused, _⟩ :=
        exists_refused rfl (fun _ _ => rfl) failed
      obtain ⟨rfl, misspelled⟩ := checkPublicName_refused refused
      have member : name ∈ type.fields.map Field.name ++ [type.idField] :=
        isName ▸ List.mem_append_right before List.mem_cons_self
      rcases List.mem_append.mp member with isField | isIdentity
      · exact .publicName known (.inr (.inr (List.mem_map.mp isField))) misspelled
      · exact .publicName known (.inr (.inl (List.mem_singleton.mp isIdentity))) misspelled
    · rename_i misspelled
      cases failed
      rw [isElementName_iff] at misspelled
      exact .elementName known misspelled

theorem two_le_count {earlier rest : List ResourceType} {type : ResourceType}
    (key : ResourceType → String) (taken : ∃ other ∈ earlier, key other = key type) :
    2 ≤ ((earlier ++ type :: rest).map key).count (key type) := by
  have before : 0 < (earlier.map key).count (key type) :=
    List.count_pos_iff.mpr (List.mem_map.mpr taken)
  rw [List.map_append, List.map_cons, List.count_append, List.count_cons_self]
  omega

theorem registerAll_describes {earlier : List ResourceType}
    (failed : registerAll earlier types = .error fault) :
    fault.Describes (earlier ++ types) := by
  induction types generalizing earlier with
  | nil => cases failed
  | cons type rest ih =>
    rw [registerAll] at failed
    split at failed
    · rename_i refused
      cases failed
      exact checkNames_describes (List.mem_append_right earlier List.mem_cons_self) refused
    · split at failed
      · rename_i taken
        cases failed
        refine .duplicateElementType (two_le_count ResourceType.element ?_)
        simpa using taken
      · split at failed
        · rename_i taken
          cases failed
          refine .duplicateResourceType (two_le_count ResourceType.name ?_)
          simpa using taken
        · have later := ih failed
          rwa [List.append_assoc, List.singleton_append] at later

/-! ## Base types -/

theorem missing_of_find? {name : String} (missing : find? types name = none) :
    ∀ other ∈ types, other.name ≠ name := by
  simpa [find?] using missing

/-- A walk that is refused comes to a type with an unknown base type, or to a type that it has
met. -/
theorem walkBases_refused (distinct : types.Pairwise fun x y => x.name ≠ y.name)
    {type : ResourceType} {met : List String} {current : { type : ResourceType // type ∈ types }}
    (failed : walkBases types type.name met current = .error fault)
    (reached : Relation.ReflTransGen (Derives types) type current.1)
    (below : ∀ name ∈ met, ∃ type ∈ types, type.name = name ∧
      Relation.TransGen (Derives types) type current.1) :
    (∃ last ∈ types, ∃ base, last.base = some base ∧ find? types base = none ∧
      fault = .unknownBaseType last.name base) ∨
    ∃ other, Relation.ReflTransGen (Derives types) type other ∧
      Relation.TransGen (Derives types) other other ∧ fault = .cyclicInheritance type.name := by
  fun_induction walkBases types type.name met current with
  | case1 met current isRoot => cases failed
  | case2 met current base isBase isMet =>
    cases failed
    obtain ⟨earlier, known, same, derives⟩ := below current.1.name isMet
    obtain rfl := eq_of_name_eq distinct known current.2 same
    exact .inr ⟨current.1, reached, derives, rfl⟩
  | case3 met current base isBase isNew missing =>
    cases failed
    exact .inl ⟨current.1, current.2, base, isBase, missing, rfl⟩
  | case4 met current base isBase isNew parent found ih =>
    have derives := derives_of_find? isBase found
    refine ih failed (reached.tail derives) fun name isMet => ?_
    rcases List.mem_cons.mp isMet with isLast | earlier
    · exact ⟨current.1, current.2, isLast.symm, .single derives⟩
    · obtain ⟨type, known, same, above⟩ := below name earlier
      exact ⟨type, known, same, above.tail derives⟩

theorem checkBases_describes (distinct : types.Pairwise fun x y => x.name ≠ y.name)
    (failed : checkBases types types = .error fault) : fault.Describes types := by
  obtain ⟨before, type, after, parts, refused, earlier⟩ :=
    exists_refused rfl (fun _ _ => rfl) failed
  have known : type ∈ types := parts ▸ List.mem_append_right before List.mem_cons_self
  rw [checkBasesFrom_eq_walkBases distinct known] at refused
  rcases walkBases_refused distinct refused .refl (List.forall_mem_nil _) with
    ⟨last, isType, base, isBase, missing, rfl⟩ | ⟨other, leads, circle, rfl⟩
  · exact .unknownBaseType isType isBase (missing_of_find? missing)
  · refine .cyclicInheritance parts (fun type member => ?_) leads circle
    obtain ⟨chain, lineage, _⟩ := checkBasesFrom_iff.mp (earlier type member)
    exact ⟨chain, lineage⟩

/-! ## Fields -/

theorem checkTarget_describes {type : ResourceType} {field : Field} (known : type ∈ types)
    (declared : field ∈ type.fields) (failed : checkTarget types type field = .error fault) :
    fault.Describes types := by
  unfold checkTarget at failed
  split at failed
  · cases failed
  · rename_i target isTarget
    split at failed
    · cases failed
    · rename_i missing
      cases failed
      exact .unknownRelationshipTarget known declared isTarget
        (missing_of_find? (Option.not_isSome_iff_eq_none.mp missing))

theorem duplicateField_describes {type : ResourceType} {field : Field}
    (distinct : types.Pairwise fun x y => x.name ≠ y.name)
    (rooted : ∃ chain, Lineage types type chain ∧ chain.length ≤ types.length + 1)
    (known : type ∈ types) (declared : field ∈ type.fields)
    (redeclared : isRedeclared types type field.name = true) :
    SchemaError.Describes types (.duplicateField type.name field.name) := by
  obtain ⟨chain, lineage, short⟩ := rooted
  obtain ⟨above, rfl⟩ := lineage.head
  have taken := mt (isRedeclared_iff distinct lineage short).mpr (ne_false_of_eq_true redeclared)
  rcases not_and_or.mp taken with isIdentity | inherited
  · push Not at isIdentity
    obtain ⟨root, derives, isRoot, same⟩ := isIdentity
    exact .identityField known declared derives isRoot same
  · push Not at inherited
    obtain ⟨ancestor, derives, other, isField, same⟩ := inherited
    exact .inheritedField known declared derives isField same

theorem checkFields_describes {type : ResourceType}
    (distinct : types.Pairwise fun x y => x.name ≠ y.name)
    (rooted : ∃ chain, Lineage types type chain ∧ chain.length ≤ types.length + 1)
    (known : type ∈ types) {fields : List Field} (declared : fields ⊆ type.fields)
    (failed : checkFields types type fields = .error fault) : fault.Describes types := by
  induction fields with
  | nil => cases failed
  | cons field rest ih =>
    obtain ⟨here, later⟩ := List.cons_subset.mp declared
    rw [checkFields] at failed
    split at failed
    · rename_i refused
      cases failed
      exact checkTarget_describes known here refused
    · split at failed
      · rename_i redeclared
        cases failed
        exact duplicateField_describes distinct rooted known here redeclared
      · exact ih later failed

theorem checkAllFields_describes (distinct : types.Pairwise fun x y => x.name ≠ y.name)
    (based : checkBases types types = .ok ())
    (failed : checkAllFields types types = .error fault) : fault.Describes types := by
  obtain ⟨before, type, after, parts, refused, _⟩ := exists_refused rfl (fun _ _ => rfl) failed
  have known : type ∈ types := parts ▸ List.mem_append_right before List.mem_cons_self
  have rooted := checkBasesFrom_iff.mp (checkBases_iff.mp based type known)
  exact checkFields_describes distinct rooted known (List.Subset.refl _) refused

/-! ## Refused lists -/

/-- What a list of types is refused for is so. -/
theorem build_describes (failed : build types = .error fault) : fault.Describes types := by
  unfold build at failed
  split at failed
  · rename_i refused
    cases failed
    exact registerAll_describes refused
  · rename_i registered
    have distinct := (registerAll_iff.mp registered).2.2.imp And.left
    split at failed
    · rename_i refused
      cases failed
      exact checkBases_describes distinct refused
    · rename_i based
      split at failed
      · rename_i refused
        cases failed
        exact checkAllFields_describes distinct based refused
      · cases failed

def Works.retitled : ResourceType :=
  ⟨"audiobooks", "Audiobook", some "recordings", "id", .int, [⟨"title", .attribute .string true⟩]⟩

theorem build_describes_retitled :
    build [Works.retitled, Works.recordings, Works.people, Works.works] =
        .error (.duplicateField "audiobooks" "title") ∧
      SchemaError.Describes [Works.retitled, Works.recordings, Works.people, Works.works]
        (.duplicateField "audiobooks" "title") := by
  have failed : build [Works.retitled, Works.recordings, Works.people, Works.works] =
      .error (.duplicateField "audiobooks" "title") := rfl
  exact ⟨failed, build_describes failed⟩

namespace Loans

def loans : ResourceType := ⟨"loans", "Loan", some "items", "id", .int, []⟩

def items : ResourceType := ⟨"items", "Item", some "items", "id", .int, []⟩

def declared : List ResourceType := [loans, items]

end Loans

/-- The circle of items is blamed on the loans, which only lead into it. -/
theorem build_blames_loans :
    build Loans.declared = .error (.cyclicInheritance "loans") ∧
      ∀ type ∈ Loans.declared, type.name = "loans" →
        ¬ Relation.TransGen (Derives Loans.declared) type type := by
  refine ⟨rfl, fun type known isLoan circle => ?_⟩
  obtain ⟨last, reached, isBase⟩ := Relation.TransGen.tail'_iff.mp circle
  have lastKnown : last ∈ Loans.declared := by
    rcases reached.cases_tail with rfl | ⟨_, _, derives⟩
    · exact known
    · exact derives.1
  have onItems : ∀ other ∈ Loans.declared, other.base = some "items" := by decide
  have same := (onItems last lastKnown).symm.trans isBase.2
  rw [isLoan] at same
  exact absurd same (by decide)

end Schema

end LayeredQuery
