import QueryPipeline.Proofs.Filter.Entry

/-!
# A client writes no operator

What a client sends ends up in a query as an operand, as a label or as a text that is searched for.
`Document.outerKeys` lists the keys of a document that stand outside operands, at any depth. The
main statement is `compileConditions_forms`: each entry of a compiled filter has exactly one of the
forms of `Entry`, its operand is the client's value or the resolver's, and outside operands the
filter has no keys but the ones that this library writes and the clients' labels, which are plain.
-/

namespace QueryPipeline

/-! ## Keys outside operands -/

/-- The keys of the store under which an operand stands. -/
def operandKeys : List String :=
  ["$eq", "$in", "$gte", "$lte", "$gt", "$lt", "$ne"]

/-- The keys that a filter may have outside operands, labels apart. -/
def filterKeys : List String :=
  ["$and", "$text", "$search", "$regex", "$options", "$exists"] ++ operandKeys

mutual

/-- The keys of a value that stand outside operands. -/
def Value.outerKeys : Value → List String
  | .array items => outerKeysOfItems items
  | .document entries => outerKeysOfEntries entries
  | .codeWithScope _ scope => outerKeysOfEntries scope
  | _ => []

/-- The keys of the elements of an array that stand outside operands. -/
def outerKeysOfItems : List Value → List String
  | [] => []
  | v :: rest => v.outerKeys ++ outerKeysOfItems rest

/-- The keys of the entries of a document that stand outside operands. -/
def outerKeysOfEntries : List (String × Value) → List String
  | [] => []
  | (key, v) :: rest =>
    key :: ((if key ∈ operandKeys then [] else v.outerKeys) ++ outerKeysOfEntries rest)

end

/-- The keys of a document that stand outside operands. -/
def Document.outerKeys (d : Document) : List String :=
  outerKeysOfEntries d

/-- A key of one of several documents. -/
theorem mem_outerKeysOfItems_map_document {documents : List Document} {key : String} :
    key ∈ outerKeysOfItems (documents.map .document) ↔ ∃ d ∈ documents, key ∈ d.outerKeys := by
  induction documents with
  | nil => simp [outerKeysOfItems]
  | cons d rest ih => simp [outerKeysOfItems, Value.outerKeys, Document.outerKeys, ih]

/-- A key of a conjunction is its own key or one of the documents that it joins. -/
theorem mem_outerKeys_conjunction {documents : List Document} {key : String} :
    key ∈ (Filter.conjunction documents).outerKeys ↔
      key = "$and" ∨ ∃ d ∈ documents, key ∈ d.outerKeys := by
  have outside : "$and" ∉ operandKeys := by decide
  simp only [Filter.conjunction, Document.single, Document.outerKeys, outerKeysOfEntries, outside,
    if_false, Value.outerKeys, List.append_nil, List.mem_cons]
  exact or_congr_right mem_outerKeysOfItems_map_document

/-- A key of a filter's document is a key of an entry, or the one that joins the entries. -/
theorem mem_outerKeys_toDocument {filter : Filter} {key : String}
    (h : key ∈ filter.toDocument.outerKeys) :
    key = "$and" ∨ ∃ d ∈ filter.entries, key ∈ d.outerKeys := by
  unfold Filter.toDocument at h
  split at h
  · next only hentries => exact .inr ⟨only, by simp [hentries], h⟩
  · exact mem_outerKeys_conjunction.1 h

/-- A comparing operator has an operand under its key. -/
theorem Comparator.key_mem_operandKeys (comparator : Comparator) :
    comparator.key ∈ operandKeys := by
  cases comparator <;> decide

/-- Outside operands a predicate has keys of the library only. -/
theorem Predicate.outerKeys_subset {predicate : Predicate} {key : String}
    (h : key ∈ predicate.toDocument.outerKeys) : key ∈ filterKeys := by
  cases predicate with
  | pattern text =>
    simp only [toDocument, Document.outerKeys, outerKeysOfEntries, Value.outerKeys, ite_self,
      List.nil_append, List.mem_cons, List.not_mem_nil, or_false] at h
    rcases h with rfl | rfl <;> decide
  | presence present =>
    simp only [toDocument, Document.outerKeys, outerKeysOfEntries, Value.outerKeys, ite_self,
      List.nil_append, List.mem_cons, List.not_mem_nil, or_false] at h
    rw [h]
    decide
  | compare comparator operand =>
    have stops := comparator.key_mem_operandKeys
    simp only [toDocument, Document.outerKeys, outerKeysOfEntries, stops, if_true,
      List.nil_append, List.mem_cons, List.not_mem_nil, or_false] at h
    rw [h]
    exact List.mem_append_right _ stops

/-- Outside operands an entry has keys of the library and its label. -/
theorem Entry.outerKeys_subset {entry : Entry} {key : String}
    (h : key ∈ entry.toDocument.outerKeys) :
    key ∈ filterKeys ∨ ∃ label predicate, entry = .labelled label predicate ∧ key = label.name := by
  cases entry with
  | everything => simp [toDocument, Document.outerKeys, outerKeysOfEntries] at h
  | search text =>
    have outside : "$text" ∉ operandKeys := by decide
    simp only [toDocument, Document.outerKeys, outerKeysOfEntries, outside, if_false,
      Value.outerKeys, ite_self, List.append_nil, List.mem_cons, List.not_mem_nil, or_false] at h
    rcases h with rfl | rfl <;> exact .inl (by decide)
  | labelled label predicate =>
    -- An operand key is no plain name, so the predicate under a label is entered.
    have outside : label.name ∉ operandKeys := by
      have reserved : ∀ k ∈ operandKeys, ¬ IsPlainName k := by decide
      exact fun hk => reserved _ hk label.plain
    simp only [toDocument, Document.outerKeys, outerKeysOfEntries, outside, if_false,
      Value.outerKeys, List.append_nil, List.mem_cons] at h
    rcases h with rfl | h
    · exact .inr ⟨label, predicate, rfl, rfl⟩
    · exact .inl (Predicate.outerKeys_subset h)

/-! ## Filters of conditions -/

section
variable {resolver : Resolver} {policy : UnknownPolicy} {conditions : List Condition}
  {filter : Filter}

/-- Outside operands a compiled condition has keys of the library, and its own label if that is a
plain name. -/
theorem Condition.outerKeys_subset {c : Condition} {d : Document} {key : String}
    (h : c.compile resolver policy = .ok d) (hkey : key ∈ d.outerKeys) :
    key ∈ filterKeys ∨ (IsPlainName key ∧ key = c.label) := by
  obtain ⟨entry, yields, rfl⟩ := compile_eq_ok_iff.1 h
  rcases Entry.outerKeys_subset hkey with hk | ⟨label, predicate, rfl, rfl⟩
  · exact .inl hk
  · exact .inr ⟨label.plain, yields.label_eq⟩

/-- What holds of a filter that conditions compile to. -/
structure Filter.FormedBy (resolver : Resolver) (policy : UnknownPolicy)
    (conditions : List Condition) (filter : Filter) : Prop where
  /-- Each entry is the document of exactly one `Entry`, which the condition at its place yields. -/
  forms : List.Forall₂ (fun c d => ∃! entry : Entry,
    c.Yields resolver policy entry ∧ entry.toDocument = d) conditions filter.entries
  /-- An operand is the client's value, or what the resolver returns for it. -/
  operands : ∀ c ∈ conditions, ∀ label comparator operand,
    c.Yields resolver policy (.labelled label (.compare comparator operand)) →
      operand = c.value ∨ ∃ text, c.value = .string text ∧ operand = resolver.resolve text
  /-- The operand of a list of choices is the client's own array. -/
  choices : ∀ c ∈ conditions, ∀ label operand,
    c.Yields resolver policy (.labelled label (.compare .oneOf operand)) →
      operand = c.value ∧ ∃ items, c.value = .array items
  /-- Outside operands there are keys of the library and plain labels of the conditions only. -/
  keys : ∀ key ∈ filter.toDocument.outerKeys,
    key ∈ filterKeys ∨ (IsPlainName key ∧ ∃ c ∈ conditions, key = c.label)

/-- Whatever conditions a client sends, a filter that they compile to has entries of the permitted
forms, and no key of it outside operands is one that the client chose and that is not plain. -/
theorem compileConditions_forms (h : compileConditions resolver policy conditions = .ok filter) :
    filter.FormedBy resolver policy conditions := by
  obtain ⟨-, compiled⟩ := compileConditions_eq_ok_iff.1 h
  refine ⟨compiled.imp fun c d hc => Condition.existsUnique_yields hc,
    fun c _ label comparator operand yields => yields.operand_eq,
    fun c _ label operand yields => yields.choices_eq, fun key hkey => ?_⟩
  rcases mem_outerKeys_toDocument hkey with rfl | ⟨d, hd, hkey⟩
  · exact .inl (by decide)
  · obtain ⟨c, hc, hcd⟩ := exists_mem_left_of_forall₂ compiled hd
    rcases Condition.outerKeys_subset hcd hkey with hk | ⟨plain, own⟩
    · exact .inl hk
    · exact .inr ⟨plain, c, hc, own⟩

end

/-- A document of operators that a client sends stays an operand, and an unknown operator adds no
key. -/
theorem compileConditions_forms_operator_value :
    let conditions : List Condition := [⟨"a", .unknown "between", .null⟩,
      ⟨"b", .eq, .document [("$where", .string "x")]⟩, ⟨"$c", .text, .string "coffee"⟩]
    let filter : Filter := ⟨[[],
      [("b", .document [("$eq", .document [("$where", .string "x")])])],
      [("$text", .document [("$search", .string "coffee")])]]⟩
    compileConditions .noop .ignore conditions = .ok filter ∧
      filter.FormedBy .noop .ignore conditions :=
  ⟨rfl, compileConditions_forms rfl⟩

end QueryPipeline
