import TypedGraph.Expression.Evaluator
import TypedGraph.Filter.Expression
import TypedGraph.Proofs.Filter.Fitting
import TypedGraph.Proofs.Number.Binary64

/-!
# Proofs/Expression/Evaluate — the values of the expressions that filters use

Each expression that a filter is written with has a value that can be said in a word: a reference
has the value at its path (`evaluate_pathReference`), `valueOrNull` that value or null,
`listOrEmpty` the items, `tail` the end of the identifier, `countElements` the number of elements
that are kept.
Sizes are compared exactly because no list has `2 ^ 61` items (`Storable`), and the tail of an
identifier is equal to a suffix exactly where the identifier ends with it
(`evaluate_tail_eq`), be it that its first byte stands in the middle of a character.
-/

namespace TypedGraph

/-- **What a machine can hold**: lists of less than `2 ^ 53` items, and strings whose number of
bytes is a signed 64-bit integer. -/
structure Value.Bounded (d : Value) : Prop where
  items : ∀ xs, (Value.arr xs).Within d → xs.length < 2 ^ 53
  bytes : ∀ s, (Value.str s).Within d → (s.utf8ByteSize : Int) ≤ Number.maxI64

/-- **What an address space can hold**: lists of less than `2 ^ 61` items, and strings whose number
of bytes is a signed 64-bit integer.  Every document in memory is so, since nothing there takes
`2 ^ 63` bytes and an item of a list takes more than four. -/
structure Value.Storable (d : Value) : Prop where
  items : ∀ xs, (Value.arr xs).Within d → xs.length < 2 ^ 61
  bytes : ∀ s, (Value.str s).Within d → (s.utf8ByteSize : Int) ≤ Number.maxI64

namespace Value

theorem Bounded.storable {d : Value} (h : d.Bounded) : d.Storable where
  items xs hxs := Nat.lt_trans (h.items xs hxs) (by decide)
  bytes := h.bytes

theorem Storable.of_lookup? {d v : Value} (hd : d.Storable) {path : List String}
    (h : d.lookup? path = some v) : v.Storable where
  items xs hxs := hd.items xs (within_of_lookup? hxs h)
  bytes s hs := hd.bytes s (within_of_lookup? hs h)

theorem bounded_str {s : String} (hs : (s.utf8ByteSize : Int) ≤ Number.maxI64) :
    (Value.str s).Bounded where
  items xs h := nomatch h
  bytes t h := by
    cases h
    exact hs

theorem bounded_arr {xs : List Value} (hlength : xs.length < 2 ^ 53)
    (hxs : ∀ x ∈ xs, x.Bounded) : (Value.arr xs).Bounded where
  items ys h := by
    rcases h with _ | ⟨hx, h⟩
    · exact hlength
    · exact (hxs _ hx).items ys h
  bytes s h := by
    rcases h with _ | ⟨hx, h⟩
    exact (hxs _ hx).bytes s h

theorem bounded_obj {es : Record Value} (hes : ∀ e ∈ es, e.2.Bounded) :
    (Value.obj es).Bounded where
  items ys h := by
    rcases h with _ | _ | ⟨he, h⟩
    exact (hes _ he).items ys h
  bytes s h := by
    rcases h with _ | _ | ⟨he, h⟩
    exact (hes _ he).bytes s h

end Value

namespace Expression

/-! ## References -/

theorem elementName_undotted (depth : Nat) : '.' ∉ (elementName depth).toList := by
  intro h
  rw [elementName, String.toList_append] at h
  rcases List.mem_append.1 h with h | h
  · exact absurd h (by decide)
  · have hdigits : (toString depth).toList = Nat.toDigits 10 depth := by simp
    rw [hdigits] at h
    exact absurd (Nat.isDigit_of_mem_toDigits (by decide) (by decide) h) (by decide)

/-- A text that does not begin with a dollar sign is a path of the document behind one. -/
theorem reference_document {path : String} (h : isDollarName path = false) (d : Value)
    (scope : Scope) : reference d scope ("$" ++ path) = d.dotted? path := by
  have hlist : ("$" ++ path).toList = '$' :: path.toList := by
    rw [String.toList_append]
    rfl
  unfold reference
  rw [hlist]
  split
  · next cs heq =>
    have hhead := (List.cons.inj heq).2
    rw [isDollarName, hhead] at h
    cases h
  · next cs _ heq =>
    rw [← (List.cons.inj heq).2, String.ofList_toList]
  · next hne => exact (hne _ rfl).elim

/-- A text that does not begin with a dollar sign stands for itself. -/
theorem reference_text {s : String} (h : isDollarName s = false) (d : Value) (scope : Scope) :
    reference d scope s = some (.str s) := by
  rw [isDollarName] at h
  unfold reference
  split
  · next hlist =>
    rw [hlist] at h
    cases h
  · next hlist =>
    rw [hlist] at h
    cases h
  · rfl

/-- A variable and a path behind two dollar signs lead to the path of the variable. -/
theorem reference_variable {name : String} {path : List String} (hname : '.' ∉ name.toList)
    (hpath : ∀ n ∈ path, '.' ∉ n.toList) (d : Value) (scope : Scope) :
    reference d scope ("$$" ++ ".".intercalate (name :: path)) =
      (Record.get? scope name).bind fun v => v.lookup? path := by
  have hlist : ("$$" ++ ".".intercalate (name :: path)).toList =
      '$' :: '$' :: (".".intercalate (name :: path)).toList := by
    rw [String.toList_append]
    rfl
  have hsplit : splitNames '.' (".".intercalate (name :: path)) = name :: path :=
    splitNames_intercalate (List.cons_ne_nil _ _) (List.forall_mem_cons.2 ⟨hname, hpath⟩)
  unfold reference
  simp only [hlist, String.ofList_toList, hsplit]

/-- **Where the paths of an expression start**: at the document under the prefix, whose fields are
those of `v`, or at the variable of a quantifier.  A prefix that begins with a dollar sign would be
taken for a variable. -/
inductive Starts (d : Value) (scope : Scope) (initial : List String) (v : Value) :
    PathRoot → ElementKind → Prop where
  | fields : (∀ path, path ≠ [] → d.lookup? (initial ++ path) = v.lookup? path) →
      (∀ n, initial.head? = some n → isDollarName n = false) →
        Starts d scope initial v .document .object
  | element {depth : Nat} {kind : ElementKind} : initial = [] →
      Record.get? scope (elementName depth) = some v →
        Starts d scope initial v (.element depth) kind

variable {d v : Value} {scope : Scope} {initial : List String} {root : PathRoot}
  {kind : ElementKind} {p : FieldPath}

/-- A document that is nested under the prefix is one under it. -/
theorem Starts.document (hd : d = Value.nest initial v)
    (hhead : ∀ n, initial.head? = some n → isDollarName n = false) :
    Starts d scope initial v .document .object :=
  .fields (fun path _ => by rw [hd, Value.lookup?_append, Value.lookup?_nest]; rfl) hhead

/-- A reference to a path of names has the value there. -/
theorem evaluate_pathReference_document {names : List String} (hnames : ∀ n ∈ names, PathName n)
    (hhead : ∀ n, names.head? = some n → isDollarName n = false) :
    evaluate d (pathReference ⟨.document, names⟩) scope = d.lookup? names := by
  have hreference : evaluate d (pathReference ⟨.document, names⟩) scope =
      reference d scope ("$" ++ ".".intercalate names) := rfl
  rw [hreference, reference_document (isDollarName_intercalate hnames hhead), Value.dotted?,
    dottedNames_intercalate hnames]

/-- **A reference has the value at its path.** -/
theorem evaluate_pathReference (hinitial : ∀ n ∈ initial, PathName n)
    (hstart : Starts d scope initial v root kind) (hp : p.Fits root kind) :
    evaluate d (pathReference (p.under initial)) scope = p.valueIn? v := by
  have hnames : ∀ n ∈ p.segments, PathName n := fun n hn => (hp.plain n hn).toPathName
  have hroot := hp.root_eq
  rcases hstart with ⟨hfields, hhead⟩ | ⟨rfl, hscope⟩
  · have hall : ∀ n ∈ initial ++ p.segments, PathName n := fun n hn =>
      (List.mem_append.1 hn).elim (hinitial n) (hnames n)
    have hne : p.segments ≠ [] := fun h => nomatch hp.start_iff.1 h
    have hpath : p.under initial = ⟨.document, initial ++ p.segments⟩ := by
      rw [← hroot]
      rfl
    rw [hpath, evaluate_pathReference_document hall, hfields _ hne]
    · rfl
    · intro n hn
      rw [List.head?_append] at hn
      rcases Option.or_eq_some_iff.1 hn with hn | ⟨-, hn⟩
      · exact hhead n hn
      · exact (hp.plain n (List.mem_of_head? hn)).undollared
  · unfold pathReference
    rw [FieldPath.under_root, hroot, FieldPath.under_nil]
    have htext : ∀ start : String, (if p.isStart then "$$" ++ start else
        "$$" ++ start ++ "." ++ p.dotted) = "$$" ++ ".".intercalate (start :: p.segments) := by
      intro start
      split
      · next hnil => rw [List.isEmpty_iff.1 hnil, String.intercalate_singleton]
      · next hne =>
        rw [String.intercalate_cons_of_ne_nil (by simpa [FieldPath.isStart] using hne),
          FieldPath.dotted]
        simp [String.append_assoc]
    dsimp only
    rw [htext]
    refine (reference_variable (elementName_undotted _) (fun n hn => (hnames n hn).undotted)
      d scope).trans ?_
    rw [hscope]
    rfl

/-! ## Operators -/

/-- Whether an operator has the results of its operands only to work with. -/
def isStrict : ExpressionOperator → Bool
  | .literal | .cond | .filter => false
  | _ => true

/-- A strict operator is applied to the values of its operands. -/
theorem evaluate_call {o : ExpressionOperator} (ho : isStrict o) (es : List Value) :
    evaluate d (call o es) scope = apply o (evaluateAll d es scope) := by
  cases o with
  | literal | cond | filter => exact nomatch ho
  | compare c => cases c <;> rfl
  | _ => rfl

/-- A strict operator is applied to the value of one operand that is no list. -/
theorem evaluate_single {o : ExpressionOperator} (ho : isStrict o) {e : Value}
    (he : e.isArray = false) :
    evaluate d (.single o.name e) scope = apply o [evaluate d e scope] := by
  cases o with
  | literal | cond | filter => exact nomatch ho
  | compare c => cases c <;> cases e <;> first | rfl | exact nomatch he
  | _ => cases e <;> first | rfl | exact nomatch he

theorem evaluate_binary {o : ExpressionOperator} (ho : isStrict o) (e f : Value) :
    evaluate d (call o [e, f]) scope = apply o [evaluate d e scope, evaluate d f scope] :=
  evaluate_call ho [e, f]

@[simp] theorem evaluate_quoted (x : Value) : evaluate d (quoted x) scope = some x := rfl

@[simp] theorem evaluate_null : evaluate d .null scope = some .null := rfl

@[simp] theorem evaluate_nat (n : Nat) : evaluate d (.nat n) scope = some (.nat n) := rfl

theorem isArray_pathReference (p : FieldPath) : (pathReference p).isArray = false := by
  unfold pathReference
  split <;> rfl

/-! ## The value at a path -/

section AtPath

variable {q : FieldPath} {w : Option Value} (href : evaluate d (pathReference q) scope = w)
include href

/-- The value at the path, null where it is missing. -/
theorem evaluate_valueOrNull : evaluate d (valueOrNull q) scope = some (Value.orNull w) := by
  rw [valueOrNull, evaluate_binary rfl, href, evaluate_null]
  rcases w with _ | (_ | _ | _ | _ | _ | _) <;> rfl

theorem evaluate_isList : evaluate d (isList q) scope = some (.bool (w.any Value.isArray)) := by
  rw [isList, evaluate_call rfl, evaluateAll, evaluateAll, href]
  rfl

/-- The items of the list at the path. -/
theorem evaluate_listOrEmpty :
    evaluate d (listOrEmpty q) scope = some (.arr (Value.itemsOf w)) := by
  have hcond : evaluate d (listOrEmpty q) scope =
      if truthy (evaluate d (isList q) scope) then evaluate d (pathReference q) scope
      else some (.arr []) := rfl
  rw [hcond, evaluate_isList href, href]
  rcases w with _ | (_ | _ | _ | _ | _ | _) <;> rfl

/-- The number of items of the list at the path. -/
theorem evaluate_sizeOf :
    evaluate d (sizeOf q) scope = some (.nat (Value.itemsOf w).length) := by
  rw [sizeOf, evaluate_single rfl rfl, evaluate_listOrEmpty href]
  rfl

theorem evaluate_eq_quoted (x : Value) :
    evaluate d (call .eq [valueOrNull q, quoted x]) scope =
      some (.bool (Value.optionalEquals w x)) := by
  rw [evaluate_binary rfl, evaluate_valueOrNull href, evaluate_quoted]
  rfl

theorem evaluate_isIn_quoted (xs : List Value) :
    evaluate d (call .isIn [valueOrNull q, quoted (.arr xs)]) scope =
      some (.bool (xs.any (Value.optionalEquals w))) := by
  have hcomm : (xs.any fun x => Value.equal x (Value.orNull w)) =
      xs.any (Value.optionalEquals w) := List.any_congr rfl fun x => Value.equal_comm _ _
  rw [evaluate_binary rfl, evaluate_valueOrNull href, evaluate_quoted, ← hcomm]
  rfl

/-- **An equality with an operand**, or with one of its items. -/
theorem evaluate_equals (operand : Value) :
    evaluate d (equals q operand) scope = some (.bool (equalsOperand w operand)) := by
  cases operand with
  | arr xs => exact evaluate_isIn_quoted href xs
  | _ => exact evaluate_eq_quoted href _

/-- **An inequality with an operand.** -/
theorem evaluate_ne_quoted (x : Value) :
    evaluate d (call .ne [valueOrNull q, quoted x]) scope =
      some (.bool !Value.optionalEquals w x) := by
  rw [evaluate_binary rfl, evaluate_valueOrNull href, evaluate_quoted]
  rfl

/-- A test of the kind of the value at the path. -/
theorem evaluate_kindIs {kind : String} (h : isDollarName kind = false) :
    evaluate d (call .eq [.single ExpressionOperator.type.name (pathReference q), .str kind])
      scope = some (.bool (kindName w == kind)) := by
  have hkind : evaluate d (.str kind) scope = some (.str kind) := reference_text h d scope
  rw [evaluate_binary rfl, evaluate_single rfl (isArray_pathReference q), href, hkind,
    ← Value.equal_str_str]
  rfl

/-- **The guard of an order comparison** tests the class of the operand. -/
theorem evaluate_classGuard {operand : Value} (h : operand.isOrderable) :
    evaluate d (classGuard q operand) scope =
      some (.bool (w.any (Value.sameClass · operand))) := by
  cases operand with
  | num n =>
    rw [classGuard, evaluate_single rfl (isArray_pathReference q), href]
    rcases w with _ | (_ | _ | _ | _ | _ | _) <;> rfl
  | bool b =>
    rw [classGuard, evaluate_kindIs href rfl]
    rcases w with _ | (_ | _ | (_ | _) | _ | _ | _) <;> rfl
  | str s =>
    rw [classGuard, evaluate_kindIs href rfl]
    · rcases w with _ | (_ | _ | (_ | _) | _ | _ | _) <;> rfl
    all_goals nofun
  | _ => exact nomatch h

/-- **An order comparison** behind its guard. -/
theorem evaluate_compares (comparison : Comparison) (operand : Value) :
    evaluate d (call (.compare comparison) [pathReference q, quoted operand]) scope =
      some (.bool (comparison.holds (Value.compare (Value.orNull w) operand))) := by
  rw [evaluate_binary rfl, href, evaluate_quoted]
  rfl

/-! ## Numbers of items -/

/-- **How many elements are kept**, where the condition is true or false of each. -/
theorem evaluate_countElements {condition : Value} {f : Value → Bool}
    (hcondition : ∀ x ∈ Value.itemsOf w,
      evaluate d condition (Record.put scope (elementName q.quantifierDepth) x) =
        some (.bool (f x))) :
    evaluate d (countElements q condition) scope =
      some (.nat ((Value.itemsOf w).filter f).length) := by
  have hfilter : evaluate d (.single ExpressionOperator.filter.name (.obj [
      ("input", listOrEmpty q), ("as", .str (elementName q.quantifierDepth)),
      ("cond", condition)])) scope =
        some (.arr ((Value.itemsOf (evaluate d (listOrEmpty q) scope)).filter fun x =>
          truthy (evaluate d condition
            (Record.put scope (elementName q.quantifierDepth) x)))) := rfl
  have hcongr : ((Value.itemsOf w).filter fun x => truthy (evaluate d condition
      (Record.put scope (elementName q.quantifierDepth) x))) = (Value.itemsOf w).filter f :=
    List.filter_congr fun x hx => by rw [hcondition x hx]; rfl
  rw [countElements, evaluate_single rfl rfl, hfilter, evaluate_listOrEmpty href, Value.itemsOf,
    hcongr]
  rfl

end AtPath

theorem compare_nat {m : Nat} (hm : m < 2 ^ 61) (n : Nat) :
    Value.compare (.nat m) (.nat n) = Ord.compare m n := Number.compare_int hm n

/-- A number of items equals another one. -/
theorem evaluate_eq_nat {e : Value} {m : Nat} (he : evaluate d e scope = some (.nat m))
    (hm : m < 2 ^ 61) (n : Nat) :
    evaluate d (call .eq [e, .nat n]) scope = some (.bool (m == n)) := by
  have hcompare : (Value.compare (.nat m) (.nat n) == .eq) = (m == n) := by
    rw [compare_nat hm, Bool.eq_iff_iff, beq_iff_eq, beq_iff_eq]
    exact Nat.compare_eq_eq
  rw [evaluate_binary rfl, he, evaluate_nat, ← hcompare]
  rfl

/-- A number of items is not zero. -/
theorem evaluate_gt_zero {e : Value} {m : Nat} (he : evaluate d e scope = some (.nat m))
    (hm : m < 2 ^ 61) :
    evaluate d (call (.compare .gt) [e, .nat 0]) scope = some (.bool (decide (0 < m))) := by
  have hcompare : (Value.compare (.nat m) (.nat 0) == .gt) = decide (0 < m) := by
    rw [compare_nat hm, Bool.eq_iff_iff, beq_iff_eq, decide_eq_true_eq]
    exact Nat.compare_eq_gt
  rw [evaluate_binary rfl, he, evaluate_nat, ← hcompare]
  rfl

/-! ## The end of an identifier -/

/-- A string has at least as many bytes as what it ends with. -/
theorem utf8ByteSize_le_of_hasEnding {s suffix : String} (h : hasEnding s suffix) :
    suffix.utf8ByteSize ≤ s.utf8ByteSize := by
  obtain ⟨before, hlist⟩ := (hasEnding_iff s suffix).1 h
  have hs : s = String.ofList before ++ suffix := by
    rw [← String.toList_inj, String.toList_append, String.toList_ofList, hlist]
  rw [hs, String.utf8ByteSize_append]
  exact Nat.le_add_left _ _

/-- **The last bytes of a string** are those of a suffix exactly where the string ends with it. -/
theorem substring_eq {s suffix : String} (hne : suffix ≠ "") :
    (substring s ((s.utf8ByteSize : Int) - suffix.utf8ByteSize) suffix.utf8ByteSize == suffix) =
      hasEnding s suffix := by
  rw [Bool.eq_iff_iff, beq_iff_eq]
  unfold substring
  split
  · next hout =>
    have hlt : ¬ suffix.utf8ByteSize ≤ s.utf8ByteSize := by omega
    exact ⟨fun h => absurd h.symm hne, fun h => absurd (utf8ByteSize_le_of_hasEnding h) hlt⟩
  · next hin =>
    have hle : suffix.utf8ByteSize ≤ s.utf8ByteSize := by omega
    have hsuffix : (Utf8.encodeChars suffix.toList).length = suffix.utf8ByteSize :=
      Utf8.length_encode suffix
    have hs : (Utf8.encodeChars s.toList).length = s.utf8ByteSize := Utf8.length_encode s
    have hstart : ((s.utf8ByteSize : Int) - suffix.utf8ByteSize).toNat =
        s.utf8ByteSize - suffix.utf8ByteSize := by omega
    have hstop : (min ((s.utf8ByteSize : Int) - suffix.utf8ByteSize + suffix.utf8ByteSize)
        s.utf8ByteSize).toNat = s.utf8ByteSize := by omega
    have htake : ((Utf8.encode s).drop (s.utf8ByteSize - suffix.utf8ByteSize)).length ≤
        s.utf8ByteSize - (s.utf8ByteSize - suffix.utf8ByteSize) :=
      Nat.le_of_eq (by rw [List.length_drop, Utf8.length_encode])
    have hle' : (Utf8.encodeChars suffix.toList).length ≤ (Utf8.encodeChars s.toList).length := by
      rw [hsuffix, hs]
      exact hle
    have hdrop := Utf8.decodeLossy_drop_eq_iff hle'
    rw [hsuffix, hs] at hdrop
    rw [hstart, hstop, Utf8.slice, List.take_of_length_le htake, hasEnding_iff, ← hdrop,
      ← String.toList_inj, String.toList_ofList]
    rfl

theorem asI64?_int {n : Int} (h : Number.minI64 ≤ n ∧ n ≤ Number.maxI64) :
    (Value.int n).asI64? = some n := if_pos h

theorem asI64?_ofBinary64? (r : Option Binary64) : (Value.ofBinary64? r).asI64? = none := by
  cases r <;> rfl

/-- What is no signed 64-bit integer is subtracted as a double, which is none either. -/
theorem asI64?_subtract_eq_none {x y : Value} (hy : y.asI64? = none) :
    (subtract x y).bind Value.asI64? = none := by
  rw [Option.bind_eq_none_iff]
  intro v hv
  unfold subtract at hv
  rw [hy] at hv
  split at hv
  · next h => exact nomatch h
  · obtain ⟨a, -, hv⟩ := Option.bind_eq_some_iff.1 hv
    obtain ⟨b, -, hv⟩ := Option.bind_eq_some_iff.1 hv
    rw [← Option.some.inj hv]
    exact asI64?_ofBinary64? _

/-- The identifier that an end is cut from: a missing one is empty. -/
def identifierOr (w : Option Value) : Value := (Value.present? w).getD (.str "")

/-- **The end of the identifier** at a path: nothing where the identifier is no string. -/
theorem evaluate_tail {q : FieldPath} {w : Option Value}
    (href : evaluate d (pathReference q) scope = w) (suffix : String) :
    evaluate d (tail q suffix) scope =
      apply .substr [some (identifierOr w),
        apply .subtract [apply .strLenBytes [some (identifierOr w)],
          some (.nat suffix.utf8ByteSize)], some (.nat suffix.utf8ByteSize)] := by
  have hid : evaluate d (call .ifNull [pathReference q, .str ""]) scope =
      some (identifierOr w) := by
    rw [evaluate_binary rfl, href]
    rcases w with _ | (_ | _ | _ | _ | _ | _) <;> rfl
  have hlength : evaluate d (.single ExpressionOperator.strLenBytes.name
      (call .ifNull [pathReference q, .str ""])) scope =
        apply .strLenBytes [some (identifierOr w)] := by
    rw [evaluate_single rfl rfl, hid]
  rw [tail, evaluate_call rfl, evaluateAll, evaluateAll, evaluateAll, evaluateAll,
    hid, evaluate_binary rfl, hlength, evaluate_nat]

theorem apply_substr (a b c : Option Value) : apply .substr [a, b, c] =
    (b.bind Value.asI64?).bind fun start => (c.bind Value.asI64?).bind fun count =>
      some (.str (substring ((a.bind Value.asString?).getD "") start count)) := rfl

theorem apply_subtract (a b : Option Value) :
    apply .subtract [a, b] = a.bind fun x => b.bind fun y => subtract x y := rfl

theorem apply_tail_str {s suffix : String} (hs : (s.utf8ByteSize : Int) ≤ Number.maxI64)
    (hsuffix : (suffix.utf8ByteSize : Int) ≤ Number.maxI64) :
    apply .substr [some (.str s), apply .subtract [apply .strLenBytes [some (.str s)],
        some (.nat suffix.utf8ByteSize)], some (.nat suffix.utf8ByteSize)] =
      some (.str (substring s ((s.utf8ByteSize : Int) - suffix.utf8ByteSize)
        suffix.utf8ByteSize)) := by
  have hsize : (Value.nat s.utf8ByteSize).asI64? = some (s.utf8ByteSize : Int) :=
    asI64?_int ⟨by simp only [Number.minI64]; omega, hs⟩
  have hcount : (Value.nat suffix.utf8ByteSize).asI64? = some (suffix.utf8ByteSize : Int) :=
    asI64?_int ⟨by simp only [Number.minI64]; omega, hsuffix⟩
  have hstart : subtract (.nat s.utf8ByteSize) (.nat suffix.utf8ByteSize) =
      some (.int ((s.utf8ByteSize : Int) - suffix.utf8ByteSize)) := by
    rw [subtract, hsize, hcount]
  have hdifference : (Value.int ((s.utf8ByteSize : Int) - suffix.utf8ByteSize)).asI64? =
      some ((s.utf8ByteSize : Int) - suffix.utf8ByteSize) := by
    refine asI64?_int ?_
    simp only [Number.minI64, Number.maxI64] at hs hsuffix ⊢
    omega
  have hlength : apply .strLenBytes [some (.str s)] = some (.nat s.utf8ByteSize) := rfl
  rw [apply_substr, apply_subtract, hlength, Option.bind_some, Option.bind_some, hstart,
    Option.bind_some, hdifference, Option.bind_some, Option.bind_some, hcount]
  rfl

/-- **The end of an identifier equals a suffix** exactly where the identifier ends with it. -/
theorem optionalEquals_tail {w : Option Value} {suffix : String} (hne : suffix ≠ "")
    (hw : ∀ s, w = some (.str s) → (s.utf8ByteSize : Int) ≤ Number.maxI64) :
    Value.optionalEquals (apply .substr [some (identifierOr w),
        apply .subtract [apply .strLenBytes [some (identifierOr w)],
          some (.nat suffix.utf8ByteSize)], some (.nat suffix.utf8ByteSize)]) (.str suffix) =
      hasEnding (identifierText w) suffix := by
  have hstring : ∀ s, (s.utf8ByteSize : Int) ≤ Number.maxI64 →
      Value.optionalEquals (apply .substr [some (.str s), apply .subtract [apply .strLenBytes
        [some (.str s)], some (.nat suffix.utf8ByteSize)], some (.nat suffix.utf8ByteSize)])
          (.str suffix) = hasEnding s suffix := by
    intro s hs
    by_cases hsuffix : (suffix.utf8ByteSize : Int) ≤ Number.maxI64
    · rw [apply_tail_str hs hsuffix, ← substring_eq hne]
      exact Value.equal_str_str _ _
    · -- The suffix has more bytes than any identifier, and their difference is no integer.
      have hnone : (Value.nat suffix.utf8ByteSize).asI64? = none := if_neg fun h => hsuffix h.2
      have hending : hasEnding s suffix = false := Bool.eq_false_iff.2 fun h => by
        have := utf8ByteSize_le_of_hasEnding h
        omega
      have hlength : apply .strLenBytes [some (.str s)] = some (.nat s.utf8ByteSize) := rfl
      rw [apply_substr, apply_subtract, hlength, Option.bind_some, Option.bind_some,
        asI64?_subtract_eq_none hnone, hending]
      rfl
  have hempty : hasEnding "" suffix = false := by
    have hlist : suffix.toList ≠ [] := by simpa using hne
    rw [Bool.eq_false_iff, Ne, hasEnding_iff]
    exact fun h => hlist (List.suffix_nil.1 h)
  rcases w with _ | (_ | _ | _ | s | _ | _)
  case some.str => exact hstring s (hw s rfl)
  case none => exact hstring "" (by decide)
  case some.null => exact hstring "" (by decide)
  all_goals exact hempty.symm

/-- **The test of a suffix**, and its negation. -/
theorem evaluate_tail_eq {q : FieldPath} {w : Option Value}
    (href : evaluate d (pathReference q) scope = w) {suffix : String} (hne : suffix ≠ "")
    (hw : ∀ s, w = some (.str s) → (s.utf8ByteSize : Int) ≤ Number.maxI64) :
    evaluate d (call .eq [tail q suffix, quoted (.str suffix)]) scope =
      some (.bool (hasEnding (identifierText w) suffix)) := by
  rw [evaluate_binary rfl, evaluate_tail href, evaluate_quoted, ← optionalEquals_tail hne hw]
  rfl

theorem evaluate_tail_ne {q : FieldPath} {w : Option Value}
    (href : evaluate d (pathReference q) scope = w) {suffix : String} (hne : suffix ≠ "")
    (hw : ∀ s, w = some (.str s) → (s.utf8ByteSize : Int) ≤ Number.maxI64) :
    evaluate d (call .ne [tail q suffix, quoted (.str suffix)]) scope =
      some (.bool !hasEnding (identifierText w) suffix) := by
  rw [evaluate_binary rfl, evaluate_tail href, evaluate_quoted, ← optionalEquals_tail hne hw]
  rfl

end Expression

end TypedGraph
