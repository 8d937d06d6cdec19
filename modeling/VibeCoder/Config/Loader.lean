/-
  Loading the configuration (`load_backend_config_json`).

  1. **Program** — the text is split into a tree of tokens, in which an object can repeat a key; the
     strict visitor makes a value of it, whose objects are maps; then the depth and the keys of the
     value are checked, and only then is it decoded and validated.

  2. **Specification** — on the tokens: no object repeats a key, no node is below level 32, no key
     is one of a secret.

  3. **The visitor (`strictValue_ok`)** — what it makes of a tree has the same nodes at the same
     depths with the same keys, and it refuses a repeated key at every level: by induction on the
     tree.

  4. **The law (`loadBackendConfigJson_law`)** — both directions, whatever the libraries do.

  `serde_json` is a parameter (`Serde`): its tokenizer, and the decoding that is derived for the
  structures.  Its limit on recursion is part of the tokenizer.
-/
import VibeCoder.Config.Backend
import VibeCoder.Lib.JsonTree

namespace VibeCoder.Config

open JsonTree
open Gateway.BaseUrl (UrlCrate)
open Gateway (refuse refuse_iff)

def maxConfigBytes : Nat := 256 * 1024
def maxJsonDepth : Nat := 32
def duplicateKeySentinel : String := "vibecoder_duplicate_json_key"

/-! ## Values -/

/-- What the tokenizer calls the visitor with, below arrays and objects. -/
inductive Token where
  | unit
  | bool (value : Bool)
  | i64 (value : Int64)
  | u64 (value : UInt64)
  | f64 (bits : UInt64)
  | string (value : String)
  deriving DecidableEq

/-- `serde_json::Number`. -/
inductive Number where
  | posInt (value : UInt64)
  | negInt (value : Int64)
  | float (bits : UInt64)
  deriving DecidableEq

/-- The values of `serde_json::Value` that are neither an array nor an object. -/
inductive Scalar where
  | null
  | bool (value : Bool)
  | number (value : Number)
  | string (value : String)
  deriving DecidableEq

/-- A text as it is tokenized: members in their order, keys decoded. -/
abbrev Document := JsonTree.Tree Token

/-- `serde_json::Value`; the members of an object are in the order of a `BTreeMap`. -/
abbrev Value := JsonTree.Tree Scalar

/-- `Map`. -/
abbrev Map := List (String × Value)

/-- `object.contains_key(&key)`. -/
def containsKey (object : Map) (key : String) : Bool := (keys object).contains key

/-- `object.insert(key, value)`. -/
def insertMember (key : String) (value : Value) : Map → Map
  | [] => [(key, value)]
  | m :: rest =>
    if key < m.1 then (key, value) :: m :: rest
    else if key = m.1 then (key, value) :: rest
    else m :: insertMember key value rest

/-! ## The visitor -/

/-- `Number::from_f64`, of the bits: the exponent of what is not finite is all ones. -/
def fromF64 (bits : UInt64) : Option Number :=
  if bits.toNat / 2 ^ 52 % 2 ^ 11 = 2047 then none else some (.float bits)

/-- `Number::from`, of an `i64`. -/
def fromI64 (value : Int64) : Number :=
  if value.toInt < 0 then .negInt value else .posInt value.toUInt64

/-- The methods of `StrictValueVisitor` for what is neither an array nor an object. -/
def visitToken : Token → Except String Scalar
  | .unit => .ok .null
  | .bool value => .ok (.bool value)
  | .i64 value => .ok (.number (fromI64 value))
  | .u64 value => .ok (.number (.posInt value))
  | .f64 bits =>
    match fromF64 bits with
    | none => .error "invalid JSON number"
    | some number => .ok (.number number)
  | .string value => .ok (.string value)

mutual

/-- `StrictValue::deserialize`. -/
def strictValue : Document → Except String Value
  | .scalar token => do
    let scalar ← visitToken token
    return .scalar scalar
  | .array items => do
    let values ← visitSeq items
    return .array values
  | .object members => do
    let object ← visitMap members []
    return .object object

/-- The loop of `visit_seq`. -/
def visitSeq : List Document → Except String (List Value)
  | [] => .ok []
  | item :: rest => do
    let value ← strictValue item
    let values ← visitSeq rest
    return value :: values

/-- The loop of `visit_map`. -/
def visitMap : List (String × Document) → Map → Except String Map
  | [], object => .ok object
  | (key, item) :: rest, object =>
    if containsKey object key then .error duplicateKeySentinel
    else do
      let value ← strictValue item
      visitMap rest (insertMember key value object)

end

/-! ## The checks -/

mutual

/-- `validate_json_tree`. -/
def validateJsonTree : Value → Nat → Result Unit
  | .scalar _, depth =>
    if depth > maxJsonDepth then .error (configError "config_nesting_too_deep") else .ok ()
  | .array items, depth =>
    if depth > maxJsonDepth then .error (configError "config_nesting_too_deep")
    else validateItems items depth
  | .object members, depth =>
    if depth > maxJsonDepth then .error (configError "config_nesting_too_deep")
    else validateValues members depth

/-- The loop over the items. -/
def validateItems : List Value → Nat → Result Unit
  | [], _ => .ok ()
  | item :: rest, depth => do
    validateJsonTree item (depth + 1)
    validateItems rest depth

/-- The loop over the values of a map. -/
def validateValues : Map → Nat → Result Unit
  | [], _ => .ok ()
  | (_, value) :: rest, depth => do
    validateJsonTree value (depth + 1)
    validateValues rest depth

end

/-- `is_forbidden_plaintext_secret_key`. -/
def isForbiddenPlaintextSecretKey (key : String) : Bool :=
  ["api_key", "apikey", "access_token", "refresh_token", "bearer_token", "auth_token",
    "authorization", "credentials", "password", "passwd", "secret", "client_secret",
    "private_key"].any (fun forbidden => forbidden.toList == key.toList.map Char.toLower)

mutual

/-- `reject_plaintext_secret_fields`. -/
def rejectPlaintextSecretFields : Value → Result Unit
  | .scalar _ => .ok ()
  | .array items => rejectInItems items
  | .object members => rejectInMembers members

/-- The loop over the items. -/
def rejectInItems : List Value → Result Unit
  | [] => .ok ()
  | item :: rest => do
    rejectPlaintextSecretFields item
    rejectInItems rest

/-- The loop over the members. -/
def rejectInMembers : Map → Result Unit
  | [] => .ok ()
  | (key, nested) :: rest =>
    if isForbiddenPlaintextSecretKey key then
      .error (configError "plaintext_secret_field_forbidden")
    else do
      rejectPlaintextSecretFields nested
      rejectInMembers rest

end

/-! ## The loader -/

/-- What is used of `serde_json`. -/
structure Serde where
  /-- The document at the front of a text and what is left, or the message of the error. -/
  read : List UInt8 → Except String (Document × List UInt8)
  /-- `serde_json::from_value`. -/
  fromValue : Value → Option BackendConfig

/-- The blanks that `end` skips. -/
def isJsonBlank (byte : UInt8) : Bool := byte == 32 || byte == 10 || byte == 9 || byte == 13

/-- `message.contains(sentinel)`. -/
def mapJsonError (message : String) : VibeCoderError :=
  if Chars.contains duplicateKeySentinel.toList message.toList then
    configError "config_duplicate_json_key"
  else configError "config_invalid_json"

/-- `load_backend_config_json`. -/
def loadBackendConfigJson (serde : Serde) (crate : UrlCrate) (raw : List UInt8) :
    Result BackendConfig := do
  refuse (raw = []) (configError "config_empty")
  refuse (raw.length > maxConfigBytes) (configError "config_too_large")
  let split ← (serde.read raw).mapError mapJsonError
  let value ← (strictValue split.1).mapError mapJsonError
  refuse (split.2.all isJsonBlank = false) (configError "config_invalid_json")
  validateJsonTree value 0
  rejectPlaintextSecretFields value
  match serde.fromValue value with
  | none => .error (configError "config_schema_invalid")
  | some config => do
    config.validate crate
    return config

/-! ## Sequencing -/

theorem except_bind_ok {ε α β : Type} {x : Except ε α} {f : α → Except ε β} {b : β} :
    (x >>= f) = .ok b ↔ ∃ a, x = .ok a ∧ f a = .ok b := by
  cases x with
  | error e => exact ⟨(fun h => by cases h), (fun ⟨_, h, _⟩ => by cases h)⟩
  | ok a =>
    constructor
    · exact fun h => ⟨a, rfl, h⟩
    · rintro ⟨_, ⟨⟩, h⟩
      exact h

theorem mapError_ok {ε ε' α : Type} {x : Except ε α} {f : ε → ε'} {a : α} :
    x.mapError f = .ok a ↔ x = .ok a := by
  cases x with
  | error e => exact ⟨(fun h => by cases h), (fun h => by cases h)⟩
  | ok b => exact ⟨(fun h => by cases h; rfl), (fun h => by cases h; rfl)⟩

/-- A check, and what comes after it. -/
theorem refuse_bind_ok {β : Type} {c : Prop} [Decidable c] {e : VibeCoderError}
    {f : Unit → Result β} {b : β} : (refuse c e >>= f) = .ok b ↔ ¬ c ∧ f () = .ok b := by
  rw [except_bind_ok]
  exact ⟨fun ⟨_, hc, h⟩ => ⟨refuse_iff.mp hc, h⟩, fun ⟨hc, h⟩ => ⟨(), refuse_iff.mpr hc, h⟩⟩

/-! ## The visitor -/

theorem mem_insertMember {key : String} {value : Value} {object : Map} (hnew : key ∉ keys object)
    {e : String × Value} : e ∈ insertMember key value object ↔ e = (key, value) ∨ e ∈ object := by
  induction object with
  | nil =>
    rw [insertMember, List.mem_singleton]
    exact ⟨Or.inl, fun h => h.resolve_right List.not_mem_nil⟩
  | cons m rest ih =>
    rw [keys_cons, List.mem_cons, not_or] at hnew
    rw [insertMember]
    split
    · exact List.mem_cons
    · rw [if_neg hnew.1, List.mem_cons, List.mem_cons, ih hnew.2]
      exact or_left_comm

/-- The values of a sequence are those of its items. -/
theorem visitSeq_ok {items : List Document} {values : List Value} (h : visitSeq items = .ok values) :
    (∀ item ∈ items, ∃ value ∈ values, strictValue item = .ok value) ∧
      ∀ value ∈ values, ∃ item ∈ items, strictValue item = .ok value := by
  induction items generalizing values with
  | nil =>
    rw [visitSeq] at h
    cases h
    exact ⟨fun _ hnone => absurd hnone List.not_mem_nil, fun _ hnone => absurd hnone List.not_mem_nil⟩
  | cons item rest ih =>
    rw [visitSeq, except_bind_ok] at h
    obtain ⟨value, hvalue, h⟩ := h
    rw [except_bind_ok] at h
    obtain ⟨later, hlater, h⟩ := h
    cases h
    obtain ⟨hitems, hvalues⟩ := ih hlater
    constructor
    · intro other hother
      rcases List.mem_cons.mp hother with rfl | hother
      · exact ⟨value, List.mem_cons_self, hvalue⟩
      · obtain ⟨v, hv, hread⟩ := hitems other hother
        exact ⟨v, List.mem_cons_of_mem _ hv, hread⟩
    · intro v hv
      rcases List.mem_cons.mp hv with rfl | hv
      · exact ⟨item, List.mem_cons_self, hvalue⟩
      · obtain ⟨other, hother, hread⟩ := hvalues v hv
        exact ⟨other, List.mem_cons_of_mem _ hother, hread⟩

/-- What is in a map, and that no key was there before. -/
structure MapRead (members : List (String × Document)) (object result : Map) : Prop where
  distinct : (keys members).Nodup
  fresh : ∀ key ∈ keys members, key ∉ keys object
  mem : ∀ e, e ∈ result ↔ e ∈ object ∨ ∃ m ∈ members, m.1 = e.1 ∧ strictValue m.2 = .ok e.2
  read : ∀ m ∈ members, ∃ value, strictValue m.2 = .ok value

theorem visitMap_ok {members : List (String × Document)} {object result : Map}
    (h : visitMap members object = .ok result) : MapRead members object result := by
  induction members generalizing object with
  | nil =>
    rw [visitMap] at h
    cases h
    refine ⟨List.nodup_nil, fun _ hnone => absurd hnone List.not_mem_nil, fun e => ?_,
      fun _ hnone => absurd hnone List.not_mem_nil⟩
    exact ⟨Or.inl, fun h => h.resolve_right (fun hnone => List.not_mem_nil hnone.choose_spec.1)⟩
  | cons m rest ih =>
    obtain ⟨key, item⟩ := m
    rw [visitMap] at h
    split at h
    · cases h
    rename_i hcontains
    have hnew : key ∉ keys object := fun hmem => hcontains (List.contains_iff_mem.mpr hmem)
    rw [except_bind_ok] at h
    obtain ⟨value, hvalue, h⟩ := h
    obtain ⟨hdistinct, hfresh, hmem, hread⟩ := ih h
    have hkeys : ∀ k, k ∈ keys (insertMember key value object) ↔ k = key ∨ k ∈ keys object := by
      intro k
      rw [List.mem_map, List.mem_map]
      constructor
      · rintro ⟨e, he, rfl⟩
        rcases (mem_insertMember hnew).mp he with rfl | he
        · exact .inl rfl
        · exact .inr ⟨e, he, rfl⟩
      · rintro (rfl | ⟨e, he, rfl⟩)
        · exact ⟨(k, value), (mem_insertMember hnew).mpr (.inl rfl), rfl⟩
        · exact ⟨e, (mem_insertMember hnew).mpr (.inr he), rfl⟩
    refine ⟨?_, ?_, fun e => ?_, ?_⟩
    · refine List.nodup_cons.mpr ⟨fun hlater => ?_, hdistinct⟩
      exact hfresh key hlater ((hkeys key).mpr (.inl rfl))
    · refine List.forall_mem_cons.mpr ⟨hnew, fun k hk hold => ?_⟩
      exact hfresh k hk ((hkeys k).mpr (.inr hold))
    · rw [hmem, mem_insertMember hnew, List.exists_mem_cons_iff, or_assoc, or_left_comm]
      refine or_congr_right (or_congr_left ⟨?_, ?_⟩)
      · rintro rfl
        exact ⟨rfl, hvalue⟩
      · rintro ⟨hkey, hsame⟩
        cases hvalue.symm.trans hsame
        exact Prod.ext hkey.symm rfl
    · exact List.forall_mem_cons.mpr ⟨⟨value, hvalue⟩, hread⟩

/-- The two trees have nodes at the same depths, and the same keys. -/
structure SameNodes (document : Document) (value : Value) : Prop where
  reaches : ∀ depth, Reaches depth value ↔ Reaches depth document
  hasKey : ∀ key, HasKey key value ↔ HasKey key document

/-- **The visitor.**  It keeps depths and keys, and refuses a repeated key wherever it is. -/
theorem strictValue_ok {document : Document} {value : Value} (h : strictValue document = .ok value) :
    ¬ Repeats document ∧ SameNodes document value := by
  induction document using JsonTree.Tree.induction generalizing value with
  | scalar token =>
    rw [strictValue, except_bind_ok] at h
    obtain ⟨scalar, -, h⟩ := h
    cases h
    refine ⟨someObject_scalar, fun depth => ?_, fun key => ?_⟩
    · rw [reaches_scalar, reaches_scalar]
    · exact iff_of_false someObject_scalar someObject_scalar
  | array items ih =>
    rw [strictValue, except_bind_ok] at h
    obtain ⟨values, hvalues, h⟩ := h
    cases h
    obtain ⟨hitems, hback⟩ := visitSeq_ok hvalues
    have hall : ∀ {P : Value → Prop} {Q : Document → Prop},
        (∀ item ∈ items, ∀ v, strictValue item = .ok v → (P v ↔ Q item)) →
        ((∃ v ∈ values, P v) ↔ ∃ item ∈ items, Q item) := by
      intro P Q hiff
      constructor
      · rintro ⟨v, hv, hP⟩
        obtain ⟨item, hitem, hread⟩ := hback v hv
        exact ⟨item, hitem, (hiff item hitem v hread).mp hP⟩
      · rintro ⟨item, hitem, hQ⟩
        obtain ⟨v, hv, hread⟩ := hitems item hitem
        exact ⟨v, hv, (hiff item hitem v hread).mpr hQ⟩
    refine ⟨?_, fun depth => ?_, fun key => ?_⟩
    · unfold Repeats
      rw [someObject_array]
      rintro ⟨item, hitem, hrepeats⟩
      obtain ⟨v, -, hread⟩ := hitems item hitem
      exact (ih item hitem hread).1 hrepeats
    · rw [reaches_array, reaches_array]
      refine or_congr_right (hall (fun item hitem v hread => ?_))
      exact exists_congr (fun d => and_congr_right' ((ih item hitem hread).2.reaches d))
    · unfold HasKey
      rw [someObject_array, someObject_array]
      exact hall (fun item hitem v hread => (ih item hitem hread).2.hasKey key)
  | object members ih =>
    rw [strictValue, except_bind_ok] at h
    obtain ⟨object, hobject, h⟩ := h
    cases h
    obtain ⟨hdistinct, -, hmem, hread⟩ := visitMap_ok hobject
    have hentry : ∀ e, e ∈ object ↔ ∃ m ∈ members, m.1 = e.1 ∧ strictValue m.2 = .ok e.2 := by
      intro e
      rw [hmem, or_iff_right List.not_mem_nil]
    have hall : ∀ {P : Value → Prop} {Q : Document → Prop},
        (∀ m ∈ members, ∀ v, strictValue m.2 = .ok v → (P v ↔ Q m.2)) →
        ((∃ e ∈ object, P e.2) ↔ ∃ m ∈ members, Q m.2) := by
      intro P Q hiff
      constructor
      · rintro ⟨e, he, hP⟩
        obtain ⟨m, hm, -, hvalue⟩ := (hentry e).mp he
        exact ⟨m, hm, (hiff m hm e.2 hvalue).mp hP⟩
      · rintro ⟨m, hm, hQ⟩
        obtain ⟨v, hvalue⟩ := hread m hm
        exact ⟨(m.1, v), (hentry _).mpr ⟨m, hm, rfl, hvalue⟩, (hiff m hm v hvalue).mpr hQ⟩
    have hkeys : ∀ key, key ∈ keys object ↔ key ∈ keys members := by
      intro key
      rw [List.mem_map, List.mem_map]
      constructor
      · rintro ⟨e, he, rfl⟩
        obtain ⟨m, hm, hkey, -⟩ := (hentry e).mp he
        exact ⟨m, hm, hkey⟩
      · rintro ⟨m, hm, rfl⟩
        obtain ⟨v, hvalue⟩ := hread m hm
        exact ⟨(m.1, v), (hentry _).mpr ⟨m, hm, rfl, hvalue⟩, rfl⟩
    refine ⟨?_, fun depth => ?_, fun key => ?_⟩
    · unfold Repeats
      rw [someObject_object]
      rintro (hrepeats | ⟨m, hm, hrepeats⟩)
      · exact hrepeats hdistinct
      · obtain ⟨v, hvalue⟩ := hread m hm
        exact (ih m hm hvalue).1 hrepeats
    · rw [reaches_object, reaches_object]
      refine or_congr_right (hall (P := fun v => ∃ d, depth = d + 1 ∧ Reaches d v)
        (Q := fun item => ∃ d, depth = d + 1 ∧ Reaches d item) (fun m hm v hvalue => ?_))
      exact exists_congr (fun d => and_congr_right' ((ih m hm hvalue).2.reaches d))
    · unfold HasKey
      rw [someObject_object, someObject_object]
      exact or_congr (hkeys key) (hall (P := HasKey key) (Q := HasKey key)
        (fun m hm v hvalue => (ih m hm hvalue).2.hasKey key))

/-! ## The checks -/

theorem validateItems_ok {items : List Value} {depth : Nat} :
    validateItems items depth = .ok () ↔
      ∀ item ∈ items, validateJsonTree item (depth + 1) = .ok () := by
  induction items with
  | nil => exact iff_of_true rfl (fun _ hnone => absurd hnone List.not_mem_nil)
  | cons item rest ih =>
    rw [validateItems, except_bind_ok, List.forall_mem_cons, ← ih]
    exact ⟨fun ⟨_, hitem, hrest⟩ => ⟨hitem, hrest⟩, fun h => ⟨(), h⟩⟩

theorem validateValues_ok {members : Map} {depth : Nat} :
    validateValues members depth = .ok () ↔
      ∀ m ∈ members, validateJsonTree m.2 (depth + 1) = .ok () := by
  induction members with
  | nil => exact iff_of_true rfl (fun _ hnone => absurd hnone List.not_mem_nil)
  | cons m rest ih =>
    rw [validateValues, except_bind_ok, List.forall_mem_cons, ← ih]
    exact ⟨fun ⟨_, hm, hrest⟩ => ⟨hm, hrest⟩, fun h => ⟨(), h⟩⟩

/-- A level below the root counts from the root. -/
theorem below_iff {β : Type} {nodes : List β} {R : Nat → β → Prop} {depth limit : Nat}
    (hroot : depth ≤ limit) :
    (∀ node ∈ nodes, ∀ d, R d node → depth + 1 + d ≤ limit) ↔
      ∀ d, (d = 0 ∨ ∃ node ∈ nodes, ∃ d', d = d' + 1 ∧ R d' node) → depth + d ≤ limit := by
  constructor
  · rintro h d (rfl | ⟨node, hnode, d', rfl, hR⟩)
    · exact hroot
    · have hbelow := h node hnode d' hR
      omega
  · intro h node hnode d hR
    have hbelow := h (d + 1) (.inr ⟨node, hnode, d, rfl, hR⟩)
    omega

/-- The depth check looks at every node. -/
theorem validateJsonTree_ok {value : Value} {depth : Nat} :
    validateJsonTree value depth = .ok () ↔
      ∀ d, Reaches d value → depth + d ≤ maxJsonDepth := by
  induction value using JsonTree.Tree.induction generalizing depth with
  | scalar value =>
    rw [validateJsonTree]
    simp only [reaches_scalar, forall_eq, Nat.add_zero]
    split
    · rename_i hdeep
      exact iff_of_false (fun h => by cases h) (Nat.not_le_of_lt hdeep)
    · rename_i hshallow
      exact iff_of_true rfl (Nat.le_of_not_lt hshallow)
  | array items ih =>
    rw [validateJsonTree]
    simp only [reaches_array]
    split
    · rename_i hdeep
      exact iff_of_false (fun h => by cases h)
        (fun h => Nat.not_le_of_lt hdeep (h 0 (.inl rfl)))
    · rename_i hshallow
      rw [validateItems_ok, ← below_iff (Nat.le_of_not_lt hshallow)]
      exact forall_congr' (fun item => forall_congr' (fun hitem => ih item hitem))
  | object members ih =>
    rw [validateJsonTree]
    simp only [reaches_object]
    split
    · rename_i hdeep
      exact iff_of_false (fun h => by cases h)
        (fun h => Nat.not_le_of_lt hdeep (h 0 (.inl rfl)))
    · rename_i hshallow
      rw [validateValues_ok, ← below_iff (R := fun d (m : String × Value) => Reaches d m.2)
        (Nat.le_of_not_lt hshallow)]
      exact forall_congr' (fun m => forall_congr' (fun hm => ih m hm))

theorem rejectInItems_ok {items : List Value} :
    rejectInItems items = .ok () ↔ ∀ item ∈ items, rejectPlaintextSecretFields item = .ok () := by
  induction items with
  | nil => exact iff_of_true rfl (fun _ hnone => absurd hnone List.not_mem_nil)
  | cons item rest ih =>
    rw [rejectInItems, except_bind_ok, List.forall_mem_cons, ← ih]
    exact ⟨fun ⟨_, hitem, hrest⟩ => ⟨hitem, hrest⟩, fun h => ⟨(), h⟩⟩

theorem rejectInMembers_ok {members : Map} :
    rejectInMembers members = .ok () ↔
      (∀ key ∈ keys members, isForbiddenPlaintextSecretKey key = false) ∧
        ∀ m ∈ members, rejectPlaintextSecretFields m.2 = .ok () := by
  induction members with
  | nil =>
    exact iff_of_true rfl ⟨fun _ hnone => absurd hnone List.not_mem_nil,
      fun _ hnone => absurd hnone List.not_mem_nil⟩
  | cons m rest ih =>
    obtain ⟨key, nested⟩ := m
    rw [rejectInMembers, keys_cons, List.forall_mem_cons, List.forall_mem_cons]
    split
    · rename_i hforbidden
      refine iff_of_false (fun h => by cases h) (fun h => ?_)
      exact Bool.false_ne_true (h.1.1.symm.trans hforbidden)
    · rename_i hallowed
      rw [except_bind_ok]
      constructor
      · rintro ⟨_, hnested, hrest⟩
        obtain ⟨hkeys, hvalues⟩ := ih.mp hrest
        exact ⟨⟨Bool.eq_false_iff.mpr hallowed, hkeys⟩, hnested, hvalues⟩
      · rintro ⟨⟨-, hkeys⟩, hnested, hvalues⟩
        exact ⟨(), hnested, ih.mpr ⟨hkeys, hvalues⟩⟩

/-- The check of the keys looks at every object. -/
theorem rejectPlaintextSecretFields_ok {value : Value} :
    rejectPlaintextSecretFields value = .ok () ↔
      ∀ key, HasKey key value → isForbiddenPlaintextSecretKey key = false := by
  induction value using JsonTree.Tree.induction with
  | scalar value =>
    rw [rejectPlaintextSecretFields]
    exact iff_of_true rfl (fun key h => absurd h someObject_scalar)
  | array items ih =>
    rw [rejectPlaintextSecretFields, rejectInItems_ok]
    unfold HasKey
    constructor
    · intro h key hkey
      obtain ⟨item, hitem, hkey⟩ := someObject_array.mp hkey
      exact (ih item hitem).mp (h item hitem) key hkey
    · intro h item hitem
      exact (ih item hitem).mpr
        (fun key hkey => h key (someObject_array.mpr ⟨item, hitem, hkey⟩))
  | object members ih =>
    rw [rejectPlaintextSecretFields, rejectInMembers_ok]
    unfold HasKey
    constructor
    · rintro ⟨hhere, hbelow⟩ key hkey
      rcases someObject_object.mp hkey with hkey | ⟨m, hm, hkey⟩
      · exact hhere key hkey
      · exact (ih m hm).mp (hbelow m hm) key hkey
    · intro h
      refine ⟨fun key hkey => h key (someObject_object.mpr (.inl hkey)), fun m hm => ?_⟩
      exact (ih m hm).mpr
        (fun key hkey => h key (someObject_object.mpr (.inr ⟨m, hm, hkey⟩)))

/-! ## The loader -/

variable {serde : Serde} {crate : UrlCrate} {raw : List UInt8} {config : BackendConfig}

/-- What an accepted document is. -/
structure Clean (document : Document) : Prop where
  distinct : ¬ Repeats document
  shallow : ∀ depth, Reaches depth document → depth ≤ maxJsonDepth
  noSecret : ∀ key, HasKey key document → isForbiddenPlaintextSecretKey key = false

/-- **The loader.**  When it returns a configuration. -/
theorem loadBackendConfigJson_ok_iff : loadBackendConfigJson serde crate raw = .ok config ↔
    raw ≠ [] ∧ raw.length ≤ maxConfigBytes ∧ ∃ document rest value,
      serde.read raw = .ok (document, rest) ∧ rest.all isJsonBlank = true ∧ Clean document ∧
      strictValue document = .ok value ∧ serde.fromValue value = some config ∧
      config.validate crate = .ok () := by
  unfold loadBackendConfigJson
  rw [refuse_bind_ok, refuse_bind_ok, except_bind_ok, Nat.not_lt]
  refine and_congr_right' (and_congr_right' ⟨?_, ?_⟩)
  · rintro ⟨⟨document, rest⟩, hread, h⟩
    obtain ⟨value, hvalue, h⟩ := except_bind_ok.mp h
    obtain ⟨hend, h⟩ := refuse_bind_ok.mp h
    obtain ⟨_, hdepth, h⟩ := except_bind_ok.mp h
    obtain ⟨_, hsecret, h⟩ := except_bind_ok.mp h
    have hstrict := mapError_ok.mp hvalue
    obtain ⟨hdistinct, hsame⟩ := strictValue_ok hstrict
    have hclean : Clean document := by
      refine ⟨hdistinct, fun depth hreaches => ?_, fun key hkey => ?_⟩
      · have hlevel := validateJsonTree_ok.mp hdepth depth ((hsame.reaches depth).mpr hreaches)
        omega
      · exact rejectPlaintextSecretFields_ok.mp hsecret key ((hsame.hasKey key).mpr hkey)
    rw [Bool.not_eq_false] at hend
    cases hdecoded : serde.fromValue value with
    | none =>
      rw [hdecoded] at h
      cases h
    | some decoded =>
      rw [hdecoded] at h
      obtain ⟨_, hvalid, hresult⟩ := except_bind_ok.mp h
      cases hresult
      exact ⟨document, rest, value, mapError_ok.mp hread, hend, hclean, hstrict, hdecoded, hvalid⟩
  · rintro ⟨document, rest, value, hread, hend, hclean, hstrict, hdecoded, hvalid⟩
    obtain ⟨-, hsame⟩ := strictValue_ok hstrict
    refine ⟨(document, rest), mapError_ok.mpr hread, ?_⟩
    refine except_bind_ok.mpr ⟨value, mapError_ok.mpr hstrict, ?_⟩
    refine refuse_bind_ok.mpr ⟨Bool.not_eq_false _ ▸ hend, ?_⟩
    refine except_bind_ok.mpr ⟨(), validateJsonTree_ok.mpr (fun depth hreaches => ?_), ?_⟩
    · rw [Nat.zero_add]
      exact hclean.shallow depth ((hsame.reaches depth).mp hreaches)
    refine except_bind_ok.mpr ⟨(), rejectPlaintextSecretFields_ok.mpr (fun key hkey => ?_), ?_⟩
    · exact hclean.noSecret key ((hsame.hasKey key).mp hkey)
    rw [hdecoded]
    exact except_bind_ok.mpr ⟨(), hvalid, rfl⟩

/-- **The law.**  A configuration that is returned is valid and comes from a document that is clean
    at every level; a document that is not clean is refused, whatever else is in the text. -/
theorem loadBackendConfigJson_law (serde : Serde) (crate : UrlCrate) (raw : List UInt8) :
    (∀ config, loadBackendConfigJson serde crate raw = .ok config →
      ∃ document rest value, serde.read raw = .ok (document, rest) ∧ Clean document ∧
        strictValue document = .ok value ∧ serde.fromValue value = some config ∧
        config.validate crate = .ok ()) ∧
    ∀ document rest, serde.read raw = .ok (document, rest) →
      (Repeats document ∨ (∃ depth, maxJsonDepth < depth ∧ Reaches depth document) ∨
        ∃ key, HasKey key document ∧ isForbiddenPlaintextSecretKey key = true) →
      ∃ e, loadBackendConfigJson serde crate raw = .error e := by
  constructor
  · intro config h
    obtain ⟨-, -, document, rest, value, hread, -, hclean, hstrict, hdecoded, hvalid⟩ :=
      loadBackendConfigJson_ok_iff.mp h
    exact ⟨document, rest, value, hread, hclean, hstrict, hdecoded, hvalid⟩
  · intro document rest hread hviolation
    cases hload : loadBackendConfigJson serde crate raw with
    | error e => exact ⟨e, rfl⟩
    | ok config =>
      obtain ⟨-, -, other, rest', -, hother, -, hclean, -⟩ := loadBackendConfigJson_ok_iff.mp hload
      cases hread.symm.trans hother
      rcases hviolation with hrepeats | ⟨depth, hdeep, hreaches⟩ | ⟨key, hkey, hforbidden⟩
      · exact absurd hrepeats hclean.distinct
      · exact absurd (hclean.shallow depth hreaches) (Nat.not_le_of_lt hdeep)
      · exact absurd hforbidden (Bool.eq_false_iff.mp (hclean.noSecret key hkey))

end VibeCoder.Config
