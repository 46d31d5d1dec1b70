import MipsBackend.Proofs.WrittenJson
import Mathlib.Data.List.Forall2
import Mathlib.Data.List.Nodup

/-! # Layouts of requests

A request may be laid out in many ways: its members in any order, among members that do not matter, or as a list.

* `FieldValue.Spells`, `FieldType.Misfits`: the JSON values that give a field, and those that a field cannot have.
* `Request.ofJson_object`: which request an object decodes to depends on the members with known keys only.
* `Request.Lays`, `Request.Damages`: the layouts of a request, and the layouts with something missing, repeated or
  misfitting.
* `Request.decodes_layouts`: every layout decodes to its request, and every damaged one is refused.
-/

namespace MipsBackend

/-! ## Fields -/

/-- The JSON value gives the value of a field. -/
inductive FieldValue.Spells : FieldValue → Json → Prop
  | text (value : String) : Spells (.text value) (.string value)
  | integer {value : Int64} {numeral : Numeral} (spelled : numeral.integer? = some value.toInt) :
      Spells (.integer value) (.number numeral)
  | count {value : UInt64} {numeral : Numeral} (spelled : numeral.integer? = some (value.toNat : Int)) :
      Spells (.count value) (.number numeral)

/-- The JSON value is of another type than the field, or an integer out of its range. -/
inductive FieldType.Misfits : FieldType → Json → Prop
  | null {type : FieldType} : Misfits type .null
  | bool {type : FieldType} (value : Bool) : Misfits type (.bool value)
  | array {type : FieldType} (elements : List Json) : Misfits type (.array elements)
  | object {type : FieldType} (members : List (String × Json)) : Misfits type (.object members)
  | number (numeral : Numeral) : Misfits .text (.number numeral)
  | string {type : FieldType} (numeric : type ≠ .text) (value : String) : Misfits type (.string value)
  /-- A number with a fraction or an exponent is no integer. -/
  | fractional {type : FieldType} {numeral : Numeral} (numeric : type ≠ .text) (notInteger : numeral.integer? = none) :
      Misfits type (.number numeral)
  | integer {numeral : Numeral} {value : Int} (spelled : numeral.integer? = some value)
      (outside : value < Int64.minValue.toInt ∨ Int64.maxValue.toInt < value) : Misfits .integer (.number numeral)
  | count {numeral : Numeral} {value : Int} (spelled : numeral.integer? = some value)
      (outside : value < 0 ∨ UInt64.size ≤ value) : Misfits .count (.number numeral)

theorem FieldValue.Spells.ofJson? {value : FieldValue} {json : Json} (spells : value.Spells json) :
    value.type.ofJson? json = some value := by
  cases spells with
  | text value => rfl
  | @integer value numeral spelled =>
    have inside : (Int64.minValue.toInt ≤ value.toInt && value.toInt ≤ Int64.maxValue.toInt) = true := by
      simpa only [Bool.and_eq_true, decide_eq_true_eq] using ⟨value.minValue_le_toInt, value.toInt_le⟩
    simp only [FieldValue.type, FieldType.ofJson?, spelled, inside, if_true, Int64.ofInt_toInt]
  | @count value numeral spelled =>
    have spelled : numeral.integer? = some (.ofNat value.toNat) := spelled
    simp [FieldValue.type, FieldType.ofJson?, spelled, value.toNat_lt_size]

theorem FieldType.Misfits.ofJson? {type : FieldType} {json : Json} (misfits : type.Misfits json) :
    type.ofJson? json = none := by
  cases misfits with
  | number => rfl
  | null | bool | array | object => cases type <;> rfl
  | string numeric => cases type <;> trivial
  | fractional numeric notInteger =>
    cases type with
    | text => contradiction
    | integer | count => simp [FieldType.ofJson?, notInteger]
  | @integer numeral value spelled outside =>
    have excluded : (Int64.minValue.toInt ≤ value && value ≤ Int64.maxValue.toInt) = false := by
      rw [Bool.and_eq_false_iff, decide_eq_false_iff_not, decide_eq_false_iff_not]
      omega
    simp only [FieldType.ofJson?, spelled, excluded, Bool.false_eq_true, if_false]
  | @count numeral value spelled outside =>
    cases value with
    | negSucc value => simp [FieldType.ofJson?, spelled]
    | ofNat value =>
      have large : ¬ value < UInt64.size := by
        rw [Int.ofNat_eq_natCast] at outside
        omega
      simp [FieldType.ofJson?, spelled, large]

/-- What a JSON value gives to a field has the type of the field. -/
theorem FieldType.type_of_ofJson? {type : FieldType} {json : Json} {value : FieldValue}
    (given : type.ofJson? json = some value) : value.type = type := by
  unfold FieldType.ofJson? at given
  split at given
  case h_1 =>
    cases given
    rfl
  case h_2 | h_3 =>
    split at given
    · split at given <;> cases given
      rfl
    · cases given
  case h_4 => cases given

theorem FieldValue.type_eq_text_iff {value : FieldValue} : value.type = .text ↔ ∃ content, value = .text content := by
  cases value <;> simp [FieldValue.type]

theorem FieldValue.type_eq_integer_iff {value : FieldValue} :
    value.type = .integer ↔ ∃ number, value = .integer number := by
  cases value <;> simp [FieldValue.type]

theorem FieldValue.type_eq_count_iff {value : FieldValue} : value.type = .count ↔ ∃ number, value = .count number := by
  cases value <;> simp [FieldValue.type]

/-! ## Objects -/

namespace Request

/-- The kind that the value of a tag names. -/
def kindOfValue : Json → Except ReadFault RequestKind
  | .string tag => kindOfTag tag
  | _ => .error .misshapen

/-- Members with a given key. -/
def named (key : String) (members : List (String × Json)) : List (String × Json) :=
  members.filter fun member => member.1 == key

theorem field?_eq (members : List (String × Json)) (field : String × FieldType) : field? members field =
    match named field.1 members with
    | [member] => field.2.ofJson? member.2
    | _ => none := rfl

theorem kindOfValue_eq_error {value : Json} {fault : ReadFault} (unknown : kindOfValue value = .error fault) :
    fault = .misshapen := by
  unfold kindOfValue kindOfTag at unknown
  grind

/-- The kind after one more tag. -/
def retag : Option RequestKind → String × Json → Except ReadFault (Option RequestKind)
  | none, tag => (kindOfValue tag.2).map some
  | some _, _ => .error .misshapen

theorem add_of_tag {draft : Draft} {member : String × Json} (isTag : member.1 = tagKey) :
    draft.add member = (retag draft.kind member).map fun kind => { draft with kind } := by
  obtain ⟨key, value⟩ := member
  obtain ⟨kind, members⟩ := draft
  obtain rfl : key = tagKey := isTag
  cases kind with
  | some kind => simp [Draft.add, Draft.addTag, retag, Except.map]
  | none =>
    cases value with
    | string tag =>
      cases known : kindOfTag tag <;>
        simp [Draft.add, Draft.addTag, retag, kindOfValue, known, bind, Except.bind, Except.map]
    | _ => simp [Draft.add, Draft.addTag, retag, kindOfValue, Except.map]

/-- Tags and other members are added independently of each other. -/
theorem foldlM_add (members : List (String × Json)) (draft : Draft) : members.foldlM Draft.add draft =
    ((named tagKey members).foldlM retag draft.kind).map fun kind =>
      ⟨kind, (members.filter fun member => member.1 != tagKey).reverse ++ draft.members⟩ := by
  induction members generalizing draft with
  | nil => rfl
  | cons member members ih =>
    -- A second tag ends both folds with the same fault, whatever other members stand before it.
    by_cases isTag : member.1 = tagKey
    · have tags : named tagKey (member :: members) = member :: named tagKey members := by simp [named, isTag]
      rw [List.foldlM_cons, add_of_tag isTag, tags, List.foldlM_cons]
      cases tagged : retag draft.kind member with
      | error fault => rfl
      | ok kind =>
        simp only [Except.map, bind, Except.bind, ih]
        simp [isTag]
    · have tags : named tagKey (member :: members) = named tagKey members := by simp [named, isTag]
      have added : draft.add member = .ok { draft with members := member :: draft.members } := by
        simp [Draft.add, isTag]
      rw [List.foldlM_cons, added, tags]
      simp only [bind, Except.bind, ih]
      simp [isTag]

/-- A field is looked for among all members, the tag included: it has another key. -/
theorem field?_filter {members : List (String × Json)} {field : String × FieldType} (notTag : field.1 ≠ tagKey) :
    field? (members.filter fun member => member.1 != tagKey) field = field? members field := by
  have same : ((members.filter fun member => member.1 != tagKey).filter fun member => member.1 == field.1) =
      members.filter fun member => member.1 == field.1 := by
    rw [List.filter_filter]
    apply List.filter_congr
    intro member _
    by_cases found : member.1 = field.1 <;> simp [found, notTag]
  simp only [field?, same]

theorem fields_ne_tagKey : ∀ kind : RequestKind, ∀ field ∈ kind.fields, field.1 ≠ tagKey := by
  intro kind
  cases kind <;> decide

theorem mapM_field?_filter (members : List (String × Json)) {fields : List (String × FieldType)}
    (notTag : ∀ field ∈ fields, field.1 ≠ tagKey) :
    fields.mapM (field? (members.filter fun member => member.1 != tagKey)) = fields.mapM (field? members) := by
  induction fields with
  | nil => rfl
  | cons field fields ih =>
    obtain ⟨first, notTag⟩ := List.forall_mem_cons.mp notTag
    rw [List.mapM_cons, List.mapM_cons, field?_filter first, ih notTag]

/-- An object with one tag decodes to the request that its fields make. -/
theorem ofJson_object {members : List (String × Json)} {tag : String × Json} {kind : RequestKind}
    (tagged : named tagKey members = [tag]) (known : kindOfValue tag.2 = .ok kind) :
    ofJson (.object members) = assemble kind (kind.fields.mapM (field? members)) := by
  rw [← mapM_field?_filter members (fields_ne_tagKey kind)]
  simp [ofJson, foldlM_add, tagged, retag, known, Draft.finish, ofMembers, bind, Except.bind, pure, Except.pure, Except.map]

/-- An object without a tag, or with more than one, is refused. -/
theorem ofJson_object_of_untagged {members : List (String × Json)} (untagged : (named tagKey members).length ≠ 1) :
    ofJson (.object members) = .error .misshapen := by
  rcases tags : named tagKey members with _ | ⟨tag, _ | ⟨second, more⟩⟩
  · simp [ofJson, foldlM_add, tags, Draft.finish, bind, Except.bind, pure, Except.pure, Except.map]
  · simp [tags] at untagged
  · cases known : kindOfValue tag.2 with
    | error fault =>
      obtain rfl := kindOfValue_eq_error known
      simp [ofJson, foldlM_add, tags, retag, known, bind, Except.bind, Except.map]
    | ok kind => simp [ofJson, foldlM_add, tags, retag, known, bind, Except.bind, Except.map]

theorem mapM_eq_none_of_mem {members : List (String × Json)} {fields : List (String × FieldType)}
    {field : String × FieldType} (mem : field ∈ fields) (absent : field? members field = none) :
    fields.mapM (field? members) = none := by
  induction fields with
  | nil => cases mem
  | cons first fields ih =>
    rw [List.mapM_cons]
    rcases List.mem_cons.mp mem with rfl | mem
    · simp [absent]
    · simp [ih mem]

theorem mapM_eq_some {members : List (String × Json)} {fields : List (String × FieldType)} {values : List FieldValue}
    (found : List.Forall₂ (fun field value => field? members field = some value) fields values) :
    fields.mapM (field? members) = some values := by
  induction found with
  | nil => rfl
  | cons first _ ih => simp [List.mapM_cons, first, ih]

/-! ## Members by key -/

section Named

variable {key : String} {member : String × Json} {members before after : List (String × Json)}

theorem length_named_insert (isKey : member.1 = key) :
    (named key (before ++ member :: after)).length = (named key (before ++ after)).length + 1 := by
  simp [named, isKey]
  omega

theorem named_insert_of_ne (other : member.1 ≠ key) :
    named key (before ++ member :: after) = named key (before ++ after) := by
  simp [named, other]

theorem named_insert_of_absent (absent : named key (before ++ after) = []) (isKey : member.1 = key) :
    named key (before ++ member :: after) = [member] := by
  simp only [named, List.filter_append, List.append_eq_nil_iff] at absent
  simp [named, isKey, absent]

theorem named_eq_nil (absent : key ∉ members.map Prod.fst) : named key members = [] := by
  simp only [named, List.filter_eq_nil_iff, beq_iff_eq]
  intro member mem same
  exact absent (List.mem_map.mpr ⟨member, mem, same⟩)

theorem named_eq_singleton (distinct : (members.map Prod.fst).Nodup) (mem : member ∈ members) :
    named member.1 members = [member] := by
  obtain ⟨before, after, rfl⟩ := List.append_of_mem mem
  apply named_insert_of_absent _ rfl
  apply named_eq_nil
  rw [List.map_append, List.map_cons, List.nodup_middle] at distinct
  rw [List.map_append]
  exact distinct.notMem

end Named

/-! ## Layouts -/

/-- The keys that matter in an object for the request. -/
def knownKeys (request : Request) : List String := tagKey :: request.kind.fields.map Prod.fst

/-- The tag of the request, and its fields with the given values. -/
def knownMembers (request : Request) (elements : List Json) : List (String × Json) :=
  (tagKey, .string request.name) :: (request.kind.fields.map Prod.fst).zip elements

/-- The members of an object that lays the request out: its tag and its fields once each, and any members with other
keys, in any order. -/
def LaidOut (request : Request) (members : List (String × Json)) : Prop :=
  ∃ elements others, List.Forall₂ FieldValue.Spells request.values elements ∧
    (∀ other ∈ others, other.1 ∉ request.knownKeys) ∧ members.Perm (request.knownMembers elements ++ others)

variable {request : Request} {members : List (String × Json)} {elements : List Json}

theorem nodup_knownKeys (request : Request) : request.knownKeys.Nodup := by
  have distinct : ∀ kind : RequestKind, (tagKey :: kind.fields.map Prod.fst).Nodup := by
    intro kind
    cases kind <;> decide
  exact distinct request.kind

theorem length_values (request : Request) : request.values.length = request.kind.fields.length := by
  have types := congrArg List.length request.types_values
  simpa using types

theorem map_fst_knownMembers (spelled : List.Forall₂ FieldValue.Spells request.values elements) :
    (request.knownMembers elements).map Prod.fst = request.knownKeys := by
  have length : (request.kind.fields.map Prod.fst).length = elements.length := by
    rw [List.length_map, ← request.length_values, spelled.length_eq]
  simp [knownMembers, knownKeys, List.map_fst_zip (Nat.le_of_eq length)]

/-- A known member of a layout is the only one with its key. -/
theorem named_of_knownMember {others : List (String × Json)} {member : String × Json}
    (spelled : List.Forall₂ FieldValue.Spells request.values elements)
    (unknown : ∀ other ∈ others, other.1 ∉ request.knownKeys)
    (layout : members.Perm (request.knownMembers elements ++ others)) (mem : member ∈ request.knownMembers elements) :
    named member.1 members = [member] := by
  have keys := map_fst_knownMembers spelled
  have isKnown : member.1 ∈ request.knownKeys := keys ▸ List.mem_map_of_mem mem
  have noOther : named member.1 others = [] := by
    apply named_eq_nil
    intro clash
    obtain ⟨other, among, same⟩ := List.mem_map.mp clash
    exact unknown other among (same ▸ isKnown)
  have one : named member.1 (request.knownMembers elements ++ others) = [member] := by
    have first := named_eq_singleton (keys ▸ request.nodup_knownKeys) mem
    simp only [named, List.filter_append] at first noOther ⊢
    rw [first, noOther]
    rfl
  have permuted : (named member.1 members).Perm [member] := one ▸ layout.filter _
  exact List.perm_singleton.mp permuted

theorem kindOfValue_name (request : Request) : kindOfValue (.string request.name) = .ok request.kind := by
  have named : ∀ kind : RequestKind, RequestKind.ofName? kind.name = some kind := by
    intro kind
    cases kind <;> decide
  simp [kindOfValue, kindOfTag, Request.name, named]

theorem assemble_values (request : Request) : assemble request.kind (some request.values) = .ok request := by
  simp [assemble, request.ofValues?_values]

theorem LaidOut.tagged (laidOut : request.LaidOut members) :
    named tagKey members = [(tagKey, .string request.name)] := by
  obtain ⟨elements, others, spelled, unknown, layout⟩ := laidOut
  exact named_of_knownMember spelled unknown layout List.mem_cons_self

/-- Each field of a layout is found, once. -/
theorem LaidOut.length_named (laidOut : request.LaidOut members) {key : String} (known : key ∈ request.knownKeys) :
    (named key members).length = 1 := by
  obtain ⟨elements, others, spelled, unknown, layout⟩ := laidOut
  rw [← map_fst_knownMembers spelled] at known
  obtain ⟨member, mem, rfl⟩ := List.mem_map.mp known
  rw [named_of_knownMember spelled unknown layout mem]
  rfl

theorem forall₂_field? {fields : List (String × FieldType)} {values : List FieldValue}
    (types : values.map FieldValue.type = fields.map Prod.snd) (spelled : List.Forall₂ FieldValue.Spells values elements)
    (found : ∀ member ∈ (fields.map Prod.fst).zip elements, named member.1 members = [member]) :
    List.Forall₂ (fun field value => field? members field = some value) fields values := by
  induction spelled generalizing fields with
  | nil =>
    cases fields with
    | nil => exact .nil
    | cons => cases types
  | @cons value element values elements spells _ ih =>
    cases fields with
    | nil => cases types
    | cons field fields =>
      simp only [List.map_cons, List.cons.injEq] at types
      simp only [List.map_cons, List.zip_cons_cons, List.forall_mem_cons] at found
      apply List.Forall₂.cons _ (ih types.2 found.2)
      rw [field?_eq, found.1, ← types.1]
      exact spells.ofJson?

theorem ofJson_of_laidOut (laidOut : request.LaidOut members) : ofJson (.object members) = .ok request := by
  have tagged := laidOut.tagged
  obtain ⟨elements, others, spelled, unknown, layout⟩ := laidOut
  have fields := forall₂_field? request.types_values spelled fun member mem =>
    named_of_knownMember spelled unknown layout (List.mem_cons_of_mem _ mem)
  rw [ofJson_object tagged request.kindOfValue_name, mapM_eq_some fields, assemble_values]

/-- An object with the tag of a request and no value for one of its fields is refused. -/
theorem ofJson_object_of_field?_eq_none {field : String × FieldType}
    (tagged : named tagKey members = [(tagKey, .string request.name)]) (isField : field ∈ request.kind.fields)
    (absent : field? members field = none) : ofJson (.object members) = .error .misshapen := by
  rw [ofJson_object tagged request.kindOfValue_name, mapM_eq_none_of_mem isField absent]
  rfl

/-- A known key that stands not exactly once makes an object useless for the request. -/
theorem ofJson_object_of_known_ne_one {key : String} (known : key ∈ request.knownKeys)
    (wrong : (named key members).length ≠ 1)
    (tagged : key ≠ tagKey → named tagKey members = [(tagKey, .string request.name)]) :
    ofJson (.object members) = .error .misshapen := by
  rcases List.mem_cons.mp known with rfl | isKey
  · exact ofJson_object_of_untagged wrong
  · obtain ⟨field, isField, rfl⟩ := List.mem_map.mp isKey
    apply ofJson_object_of_field?_eq_none (tagged (fields_ne_tagKey _ field isField)) isField
    rw [field?_eq]
    split
    case h_1 found => simp [found] at wrong
    case h_2 => rfl

theorem LaidOut.named_without {before after : List (String × Json)} {member : String × Json}
    (laidOut : request.LaidOut (before ++ member :: after)) (known : member.1 ∈ request.knownKeys) :
    named member.1 (before ++ after) = [] := by
  have one := laidOut.length_named known
  rw [length_named_insert rfl] at one
  exact List.length_eq_zero_iff.mp (by omega)

/-! ## Lists -/

theorem positional?_eq_some {fields : List (String × FieldType)} {values : List FieldValue}
    (types : values.map FieldValue.type = fields.map Prod.snd) (spelled : List.Forall₂ FieldValue.Spells values elements) :
    positional? fields elements = some values := by
  induction spelled generalizing fields with
  | nil =>
    cases fields with
    | nil => rfl
    | cons => cases types
  | cons spells _ ih =>
    cases fields with
    | nil => cases types
    | cons field fields =>
      simp only [List.map_cons, List.cons.injEq] at types
      simp [positional?, ← types.1, spells.ofJson?, ih types.2]

theorem length_of_positional? {fields : List (String × FieldType)} {values : List FieldValue}
    (filled : positional? fields elements = some values) : elements.length = fields.length := by
  fun_induction positional? fields elements generalizing values with
  | case1 => rfl
  | case2 field fields element elements ih =>
    simp only [Option.bind_eq_bind, Option.bind_eq_some_iff] at filled
    obtain ⟨_, _, more, positional, _⟩ := filled
    simp [ih positional]
  | case3 => cases filled

theorem ofElements_of_spelled (spelled : List.Forall₂ FieldValue.Spells request.values elements) :
    ofElements request.kind elements = .ok request := by
  rw [ofElements, positional?_eq_some request.types_values spelled, assemble_values]

theorem ofElements_of_length_ne {kind : RequestKind} (wrong : elements.length ≠ kind.fields.length) :
    ofElements kind elements = .error .misshapen := by
  have unfilled : positional? kind.fields elements = none := by
    rw [Option.eq_none_iff_forall_ne_some]
    intro values filled
    exact wrong (length_of_positional? filled)
  simp [ofElements, unfilled, assemble]

theorem types_of_positional? {fields : List (String × FieldType)} {values : List FieldValue}
    (filled : positional? fields elements = some values) : values.map FieldValue.type = fields.map Prod.snd := by
  fun_induction positional? fields elements generalizing values with
  | case1 =>
    cases filled
    rfl
  | case2 field fields element elements ih =>
    simp only [Option.bind_eq_bind, Option.bind_eq_some_iff, Option.some.injEq] at filled
    obtain ⟨value, given, more, positional, rfl⟩ := filled
    simp [FieldType.type_of_ofJson? given, ih positional]
  | case3 => cases filled

/-- Values of the right types make a request of the kind they were meant for. -/
theorem kind_of_ofValues? {kind : RequestKind} {values : List FieldValue}
    (types : values.map FieldValue.type = kind.fields.map Prod.snd) (made : ofValues? kind values = some request) :
    kind = request.kind := by
  cases kind <;> simp only [RequestKind.fields, List.map_cons, List.map_nil, List.map_eq_cons_iff, List.map_eq_nil_iff,
    FieldValue.type_eq_text_iff, FieldValue.type_eq_integer_iff, FieldValue.type_eq_count_iff, existsAndEq,
    and_true] at types
  -- The kinds are taken by the number of their fields: once the values are known, so is the request.
  case writeNewline | close | beginElse | endIf | beginWhile | endWhile =>
    subst types
    cases made
    rfl
  case li | la | move | pushIf | pushElse | pushLoop =>
    obtain ⟨_, _, rfl⟩ := types
    cases made
    rfl
  case lw | sw | beq =>
    obtain ⟨_, _, _, rfl⟩ := types
    cases made
    rfl
  case binop | binopImm =>
    obtain ⟨_, _, _, _, rfl⟩ := types
    cases made
    rfl
  all_goals
    obtain ⟨_, rfl⟩ := types
    cases made
    rfl

/-- A list that decodes to a request has one element for the tag and one for each field. -/
theorem length_of_ofJson_array (decoded : ofJson (.array elements) = .ok request) :
    elements.length = request.values.length + 1 := by
  unfold ofJson at decoded
  split at decoded
  case h_2 tag fields same =>
    cases same
    obtain ⟨kind, _, decoded⟩ := exceptBind_eq_ok_iff.mp decoded
    cases filled : positional? kind.fields fields with
    | none => simp [ofElements, assemble, filled] at decoded
    | some values =>
      cases made : ofValues? kind values with
      | none => simp [ofElements, assemble, filled, made] at decoded
      | some other =>
        obtain rfl : other = request := by simpa [ofElements, assemble, filled, made] using decoded
        simp [length_of_positional? filled, length_values, kind_of_ofValues? (types_of_positional? filled) made]
  case h_1 same => cases same
  case h_3 => cases decoded

/-! ## Decoding -/

/-- The layouts of a request: an object, or a list that starts with the tag. -/
inductive Lays (request : Request) : Json → Prop
  | object {members : List (String × Json)} (laidOut : request.LaidOut members) : Lays request (.object members)
  | array {elements : List Json} (spelled : List.Forall₂ FieldValue.Spells request.values elements) :
      Lays request (.array (.string request.name :: elements))

/-- A layout of a request to which something was done that must not be. -/
inductive Damages (request : Request) : Json → Prop
  /-- The tag or a field is removed. -/
  | missing {before after : List (String × Json)} {member : String × Json}
      (laidOut : request.LaidOut (before ++ member :: after)) (known : member.1 ∈ request.knownKeys) :
      Damages request (.object (before ++ after))
  /-- The tag or a field is given again, with the same or another value. -/
  | repeated {before after : List (String × Json)} {member : String × Json}
      (laidOut : request.LaidOut (before ++ after)) (known : member.1 ∈ request.knownKeys) :
      Damages request (.object (before ++ member :: after))
  /-- A field has a value of another type, or an integer out of its range. -/
  | misfitting {before after : List (String × Json)} {field : String × FieldType} {value other : Json}
      (laidOut : request.LaidOut (before ++ (field.1, value) :: after)) (isField : field ∈ request.kind.fields)
      (misfits : field.2.Misfits other) : Damages request (.object (before ++ (field.1, other) :: after))
  /-- The list has more elements after the tag than there are fields, or fewer. -/
  | array {elements : List Json} (wrong : elements.length ≠ request.values.length) :
      Damages request (.array (.string request.name :: elements))
  | empty : Damages request (.array [])

theorem Lays.ofJson_eq {json : Json} (lays : request.Lays json) : ofJson json = .ok request := by
  cases lays with
  | object laidOut => exact ofJson_of_laidOut laidOut
  | array spelled =>
    have known : kindOfTag request.name = .ok request.kind := request.kindOfValue_name
    simp [ofJson, known, ofElements_of_spelled spelled, bind, Except.bind]

theorem Damages.ofJson_eq {json : Json} (damages : request.Damages json) : ofJson json = .error .misshapen := by
  cases damages with
  | @missing before after member laidOut known =>
    apply ofJson_object_of_known_ne_one known
    · rw [laidOut.named_without known]
      decide
    · -- The tag is still in its place unless it is what was removed.
      intro notTag
      exact (named_insert_of_ne notTag).symm.trans laidOut.tagged
  | @repeated before after member laidOut known =>
    apply ofJson_object_of_known_ne_one known
    · rw [length_named_insert rfl, laidOut.length_named known]
      decide
    · intro notTag
      exact (named_insert_of_ne notTag).trans laidOut.tagged
  | @misfitting before after field value other laidOut isField misfits =>
    have notTag : field.1 ≠ tagKey := fields_ne_tagKey _ field isField
    have known : field.1 ∈ request.knownKeys := List.mem_cons_of_mem _ (List.mem_map_of_mem isField)
    have tagged : named tagKey (before ++ (field.1, other) :: after) = [(tagKey, .string request.name)] := by
      rw [named_insert_of_ne notTag, ← laidOut.tagged, named_insert_of_ne notTag]
    have absent : named field.1 (before ++ after) = [] := laidOut.named_without known
    apply ofJson_object_of_field?_eq_none tagged isField
    rw [field?_eq, named_insert_of_absent absent rfl]
    exact misfits.ofJson?
  | @array elements wrong =>
    have known : kindOfTag request.name = .ok request.kind := request.kindOfValue_name
    rw [length_values] at wrong
    simp [ofJson, known, ofElements_of_length_ne wrong, bind, Except.bind]
  | empty => rfl

end Request

/-! ## Scripts with one request -/

/-- A value does not start with a closing bracket. -/
theorem Json.starts_of_readValue {limit budget : Nat} {text rest : List Char} {json : Json}
    (read : readValue .exact limit budget text = .ok (json, rest)) :
    dropBlanks text ≠ [] ∧ ∀ after, dropBlanks text ≠ ']' :: after := by
  rcases readValue_cases read with ⟨_, opened, _⟩ | ⟨_, opened, _⟩ | scalar
  · simp [opened]
  · simp [opened]
  · constructor
    · intro empty
      simp [empty, readScalar] at scalar
    · intro after closed
      simp [closed, readScalar] at scalar

theorem Json.readElements_single {α : Type} {element : Reader α} {result : Except ReadFault α} {limit : Nat}
    {text rest : List Char} (starts : dropBlanks text ≠ [] ∧ ∀ after, dropBlanks text ≠ ']' :: after)
    (reads : element (dropBlanks text) = result.map (·, ']' :: rest)) :
    readElements element limit text = result.map ([·], rest) := by
  have closed : readMoreElements element limit (']' :: rest) = .ok ([], rest) := by
    rw [readMoreElements]
    rfl
  unfold readElements
  split
  case h_1 empty => exact absurd empty starts.1
  case h_2 after closed => exact absurd closed (starts.2 after)
  case h_3 => cases result <;> simp [reads, closed, bind, Except.bind, Except.map]

theorem Request.read_dropBlanks {limit budget : Nat} {text : List Char} :
    Request.read limit budget (Json.dropBlanks text) = Request.read limit budget text := by
  simp [Request.read]

/-- The text of a script with one request and no string literals. -/
def Script.single (text : List Char) : List Char :=
  '\x7b' :: Json.writeString "requests" ++ ':' :: '[' :: text ++ [']', '\x7d']

theorem Script.read_single {limit : Nat} {text : List Char} {result : Except ReadFault Request}
    (enough : (Json.writeString "requests").length ≤ limit)
    (elements : Json.readElements (Request.read limit requestBudget) limit (text ++ [']', '\x7d']) =
      result.map ([·], ['\x7d'])) :
    Script.read limit (single text) = result.map fun request => (⟨[], [request]⟩, []) := by
  have key (after : List Char) : Json.readKey .exact limit (Json.writeString "requests" ++ after) =
      .ok ("requests", after) := Json.readKey_written .exact enough
  have member : readDraftMember limit {} "requests" (':' :: '[' :: (text ++ [']', '\x7d'])) =
      result.map fun request => ({ requests := some [request] }, ['\x7d']) := by
    cases result <;>
      simp [readDraftMember, Json.readAfterColon, readRequests, readList, Json.dropBlanks, Json.isBlank, elements, bind,
        Except.bind, Except.map]
  have closed (draft : Draft) : Json.readMoreMembers .exact limit (readDraftMember limit) limit draft ['\x7d'] =
      .ok (draft, []) := by
    rw [Json.readMoreMembers]
    rfl
  have members : Json.readMembers .exact limit (readDraftMember limit) {}
      (Json.writeString "requests" ++ ':' :: '[' :: (text ++ [']', '\x7d'])) =
      result.map fun request => ({ requests := some [request] }, []) := by
    have quoted (after : List Char) :
        Json.dropBlanks (Json.writeString "requests" ++ after) = Json.writeString "requests" ++ after := rfl
    unfold Json.readMembers
    rw [quoted]
    split
    case h_1 empty => simp [Json.writeString] at empty
    case h_2 closed => simp [Json.writeString] at closed
    case h_3 => cases result <;> simp [key, member, closed, bind, Except.bind, Except.map]
  have opened : single text =
      '\x7b' :: (Json.writeString "requests" ++ ':' :: '[' :: (text ++ [']', '\x7d'])) := by simp [single]
  rw [opened, Script.read, Json.dropBlanks_cons_of_notBlank (by decide)]
  cases result <;> simp [members, Draft.finish, bind, Except.bind, Except.map]

/-- The request in a script of its own is the one that its JSON value decodes to. -/
theorem Script.parseChars_single {text : List Char} {json : Json}
    (spelled : Json.readValue .exact (single text).length (requestBudget + 1) (text ++ [']', '\x7d']) =
      .ok (json, [']', '\x7d'])) :
    parseChars (single text) = (Request.ofJson json).map fun request => ⟨[], [request]⟩ := by
  have element : Request.read (single text).length requestBudget (Json.dropBlanks (text ++ [']', '\x7d'])) =
      (Request.ofJson json).map (·, [']', '\x7d']) := by
    rw [Request.read_dropBlanks, Request.read_eq_ofJson spelled]
  have enough : (Json.writeString "requests").length ≤ (single text).length := by
    simp [single]
    omega
  have read := read_single enough (Json.readElements_single (Json.starts_of_readValue spelled) element)
  unfold parseChars
  cases decoded : Request.ofJson json <;> simp [read, decoded, bind, Except.bind, Except.map, Json.dropBlanks]

/-! ## Decoding texts -/

/-- The JSON value decodes to the result. Wherever a text spells the value, the result is also what is read of the text,
and of a script with this request alone. -/
structure Json.DecodesTo (json : Json) (result : Except ReadFault Request) : Prop where
  value : Request.ofJson json = result
  request : ∀ ⦃limit budget text rest⦄, readValue .exact limit (budget + 1) text = .ok (json, rest) →
    Request.read limit budget text = result.map (·, rest)
  script : ∀ ⦃text⦄, readValue .exact (Script.single text).length (Script.requestBudget + 1) (text ++ [']', '\x7d']) =
      .ok (json, [']', '\x7d']) →
    Script.parseChars (Script.single text) = result.map fun request => ⟨[], [request]⟩

theorem Json.decodesTo_ofJson (json : Json) : json.DecodesTo (Request.ofJson json) where
  value := rfl
  request _ _ _ _ spelled := Request.read_eq_ofJson spelled
  script _ spelled := Script.parseChars_single spelled

end MipsBackend
