/-
This file shows that no mapping of a loaded value has one key twice.
-/

import Phrasebook.Proofs.Outcome
import Phrasebook.Yaml.Load

namespace Phrasebook.Yaml.Value

/-- No mapping inside the value has a key that is the same as an earlier one. -/
inductive KeysApart : Value → Prop
  | null : KeysApart .null
  | bool (flag : Bool) : KeysApart (.bool flag)
  | number (value : Number) : KeysApart (.number value)
  | string (text : String) : KeysApart (.string text)
  | sequence {items : List Value} :
      (∀ item ∈ items, KeysApart item) → KeysApart (.sequence items)
  | mapping {pairs : List (Value × Value)} :
      pairs.Pairwise (fun first second => first.1.same second.1 = false) →
      (∀ pair ∈ pairs, KeysApart pair.1) → (∀ pair ∈ pairs, KeysApart pair.2) →
      KeysApart (.mapping pairs)
  | tagged (tag : String) {value : Value} : KeysApart value → KeysApart (.tagged tag value)

theorem keysApart_mapping_iff {pairs : List (Value × Value)} :
    KeysApart (.mapping pairs) ↔
      pairs.Pairwise (fun first second => first.1.same second.1 = false) ∧
        (∀ pair ∈ pairs, KeysApart pair.1) ∧ ∀ pair ∈ pairs, KeysApart pair.2 := by
  constructor
  · intro apart
    cases apart with
    | mapping distinct keys values => exact ⟨distinct, keys, values⟩
  · intro apart
    exact .mapping apart.1 apart.2.1 apart.2.2

/-- Every value that a loading program returns has the property. -/
def Ensures {A : Type} (property : A → Prop) (program : Loading A) : Prop :=
  ∀ before value after, program.run before = .ok (value, after) → property value

namespace Ensures

variable {A B : Type} {property : A → Prop} {conclusion : B → Prop}

theorem pure {value : A} (holds : property value) :
    Ensures property (Pure.pure value : Loading A) := by
  intro before result after succeeded
  cases succeeded
  exact holds

theorem throw (fault : Fault) : Ensures property (MonadExcept.throw fault : Loading A) := by
  intro before result after succeeded
  cases succeeded

theorem lift {program : Except Fault A} (holds : ∀ value, program = .ok value → property value) :
    Ensures property (liftM program : Loading A) := by
  intro before result after succeeded
  cases program with
  | error fault => cases succeeded
  | ok loaded =>
      cases succeeded
      exact holds _ rfl

theorem bind {first : Loading A} {next : A → Loading B} (start : Ensures property first)
    (continued : ∀ value, property value → Ensures conclusion (next value)) :
    Ensures conclusion (first >>= next) := by
  intro before result after succeeded
  rw [StateT.run_bind] at succeeded
  obtain ⟨⟨value, middle⟩, ran, further⟩ := Outcome.bind_eq_ok_iff.mp succeeded
  exact continued value (start _ _ _ ran) _ _ _ further

theorem mapM {step : B → Loading A} {items : List B}
    (each : ∀ item ∈ items, Ensures property (step item)) :
    Ensures (fun results => ∀ result ∈ results, property result) (items.mapM step) := by
  induction items with
  | nil =>
      rw [List.mapM_nil]
      exact pure (by simp)
  | cons item rest inductionHypothesis =>
      obtain ⟨first, further⟩ := List.forall_mem_cons.mp each
      rw [List.mapM_cons]
      refine bind first fun result holds => ?_
      refine bind (inductionHypothesis further) fun results all => ?_
      exact pure (List.forall_mem_cons.mpr ⟨holds, all⟩)

/-- What every step keeps holds after a fold. -/
theorem foldlM {step : A → B → Loading A} {items : List B} {start : A}
    (initial : property start)
    (kept : ∀ state, property state → ∀ item ∈ items, Ensures property (step state item)) :
    Ensures property (items.foldlM step start) := by
  induction items generalizing start with
  | nil =>
      rw [List.foldlM_nil]
      exact pure initial
  | cons item rest inductionHypothesis =>
      rw [List.foldlM_cons]
      refine bind (kept start initial item List.mem_cons_self) fun state holds => ?_
      refine inductionHypothesis holds ?_
      intro state holds other member
      exact kept state holds other (List.mem_cons_of_mem _ member)

end Ensures

theorem keysApart_of_null {text : String} {value : Value} (read : null? text = some value) :
    KeysApart value := by
  rw [null?] at read
  split at read <;> cases read
  exact .null

theorem keysApart_of_bool {text : String} {value : Value} (read : bool? text = some value) :
    KeysApart value := by
  rw [bool?] at read
  split at read
  · cases read
    exact .bool true
  · split at read <;> cases read
    exact .bool false

theorem keysApart_of_plain {text : String} {value : Value} (read : ofPlain text = .ok value) :
    KeysApart value := by
  rw [ofPlain] at read
  split at read
  · cases read
    exact .null
  · split at read
    · rename_i word isWord
      cases read
      rw [Option.orElse_eq_orElse, Option.orElse_eq_or, Option.or_eq_some_iff] at isWord
      obtain isNull | ⟨_, isBool⟩ := isWord
      · exact keysApart_of_null isNull
      · exact keysApart_of_bool isBool
    · dsimp only at read
      split at read
      · cases read
        exact .number _
      · cases read
      · split at read
        · cases read
          exact .string _
        · split at read <;> cases read
          · exact .number _
          · exact .string _

theorem keysApart_of_typed {tag : Octets} {text : String} {value : Value}
    (read : ofTyped? tag text = some (.ok value)) : KeysApart value := by
  have expected {found : Option Value} (apart : ∀ value, found = some value → KeysApart value)
      (isFound : expect found = .ok value) : KeysApart value := by
    cases found with
    | none => cases isFound
    | some found =>
        cases isFound
        exact apart _ rfl
  rw [ofTyped?] at read
  dsimp only at read
  split at read
  · exact expected (fun _ => keysApart_of_bool) (Option.some.inj read)
  · split at read
    · rw [ofTypedInteger, Option.some.injEq] at read
      split at read <;> cases read
      exact .number _
    · split at read
      · apply expected _ (Option.some.inj read)
        intro value isFloat
        obtain ⟨number, _, same⟩ := Option.map_eq_some_iff.mp isFloat
        rw [← same]
        exact .number _
      · split at read
        · exact expected (fun _ => keysApart_of_null) (Option.some.inj read)
        · cases read

theorem keysApart_of_scalar {tagRead : Bool} {tag : Option Octets} {style : ScalarStyle}
    {text : String} {value : Value} (read : ofScalar tagRead tag style text = .ok value) :
    KeysApart value := by
  rw [ofScalar] at read
  split at read
  · split at read
    · exact keysApart_of_plain read
    · cases read
      exact .string _
  · split at read
    · rename_i typed
      subst read
      exact keysApart_of_typed typed
    · split at read
      · exact keysApart_of_plain read
      · cases read
        exact .string _

theorem keysApart_elim {name : Option String} {value : Value} (apart : KeysApart value) :
    KeysApart (name.elim id .tagged value) := by
  cases name with
  | none => exact apart
  | some name => exact .tagged name apart

theorem ensures_loadScalar (tagRead : Bool) (properties : Properties) (style : ScalarStyle)
    (text : String) : Ensures KeysApart (loadScalar tagRead properties style text) := by
  rw [loadScalar]
  cases pendingTag? tagRead properties with
  | none => exact .lift fun _ => keysApart_of_scalar
  | some name =>
      refine .bind (.lift fun _ => keysApart_of_scalar) fun value apart => ?_
      exact .pure (.tagged name apart)

/-- Pairs that are read from the latest to the first and fit into a mapping. -/
def PairsApart (loaded : List (Value × Value)) : Prop :=
  KeysApart (.mapping loaded.reverse)

theorem ensures_loadPair {loadKey loadValue : Node → Loading Value}
    (keys : ∀ node, Ensures KeysApart (loadKey node))
    (values : ∀ node, Ensures KeysApart (loadValue node)) (loaded : List (Value × Value))
    (before : PairsApart loaded) (pair : Node × Node) :
    Ensures PairsApart (loadPair loadKey loadValue loaded pair) := by
  rw [loadPair]
  refine .bind (keys _) fun key keyApart => ?_
  cases repeated : loaded.any fun other => other.1.same key with
  | true => exact .throw _
  | false =>
      refine .bind (values _) fun value valueApart => .pure ?_
      have fresh := List.any_eq_false.mp repeated
      rcases before with _ | _ | _ | _ | _ | ⟨apart, keysBefore, valuesBefore⟩
      rw [PairsApart, List.reverse_cons]
      apply KeysApart.mapping
      · refine List.pairwise_append.mpr ⟨apart, List.pairwise_singleton _ _, ?_⟩
        intro first isFirst last isLast
        rw [List.mem_singleton.mp isLast]
        simpa using fresh first (List.mem_reverse.mp isFirst)
      · intro other member
        obtain earlier | latest := List.mem_append.mp member
        · exact keysBefore other earlier
        · rw [List.mem_singleton.mp latest]
          exact keyApart
      · intro other member
        obtain earlier | latest := List.mem_append.mp member
        · exact valuesBefore other earlier
        · rw [List.mem_singleton.mp latest]
          exact valueApart

theorem ensures_loadTarget {inner? : Option (Bool → Node → Loading Value)}
    (apart : ∀ inner ∈ inner?, ∀ tagRead node, Ensures KeysApart (inner tagRead node))
    (tagRead : Bool) (node : Node) : Ensures KeysApart (loadTarget inner? tagRead node) := by
  match node with
  | .alias anchor => exact .throw _
  | .scalar properties style text => exact ensures_loadScalar tagRead properties style text
  | .sequence properties items =>
      cases inner? with
      | none => exact .throw _
      | some inner =>
          have each := apart inner rfl
          refine .bind (.mapM fun item _ => each false item) fun values all => ?_
          exact .pure (keysApart_elim (.sequence all))
  | .mapping properties pairs =>
      cases inner? with
      | none => exact .throw _
      | some inner =>
          have each := apart inner rfl
          have empty : PairsApart [] := .mapping .nil (by simp) (by simp)
          refine .bind (.foldlM empty ?_) fun loaded all => .pure (keysApart_elim all)
          intro loaded before pair _
          exact ensures_loadPair (each _) (each false) loaded before pair

/-- Loading checks every mapping for repeated keys, however deep it lies. -/
theorem ensures_ofNode (anchored : List (Nat × Node)) (depth : Nat) (tagRead : Bool)
    (node : Node) : Ensures KeysApart (ofNode anchored depth tagRead node) := by
  have any {A : Type} (program : Loading A) : Ensures (fun _ => True) program :=
    fun _ _ _ _ => trivial
  induction depth generalizing tagRead node with
  | zero =>
      rw [ofNode]
      refine .bind (any _) fun target _ => ?_
      exact ensures_loadTarget (by simp) target.2 target.1
  | succ depth inductionHypothesis =>
      rw [ofNode]
      refine .bind (any _) fun target _ => ?_
      refine ensures_loadTarget ?_ target.2 target.1
      intro inner isInner
      cases isInner
      exact inductionHypothesis

theorem load_keysApart {source : String} {value : Value} (loaded : load source = .ok value) :
    KeysApart value := by
  rw [load] at loaded
  obtain ⟨document, _, further⟩ := Outcome.bind_eq_ok_iff.mp loaded
  cases document with
  | none =>
      cases further
      exact .null
  | some root =>
      obtain ⟨⟨result, after⟩, ran, same⟩ := Outcome.bind_eq_ok_iff.mp further
      cases same
      exact ensures_ofNode _ _ _ _ _ _ _ ran

end Phrasebook.Yaml.Value
