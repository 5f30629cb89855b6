import ScanBounds.Proofs.Value.Order
import ScanBounds.Value.Hash

/-!
# What the layout of a value tells

The bytes that are digested for a value say which bracket it is in and how long its parts are before they
give the parts, so they can be read back in one way only: of two streams that begin with laid out values,
both show where the value ends and what it was (`Value.hashInput_readsBack`).  What the layout leaves out is
what equality leaves out too, strings against symbols and the width of numbers, and one thing more: numbers
enter as integers.  So two values are laid out alike exactly if they are equal once their numbers are folded.
-/

namespace ScanBounds

/-! ## Folding numbers -/

/-- The integer that stands for a quantity: its whole part, and the nearest end for what is out of range. -/
def Quantity.fold : Quantity → Int64
  | nan | negInfinity => Int64.minValue
  | finite scaled =>
    Int64.ofInt (max Int64.minValue.toInt (min Int64.maxValue.toInt (scaled.tdiv Double.unitsPerOne)))
  | infinity => Int64.maxValue

/-- Folding sees of a number what it denotes, and not its width. -/
lemma Number.fold_eq (n : Number) : n.fold = n.quantity.fold := by
  have hint (k : Int64) : k = (Quantity.ofInt k.toInt).fold := by
    have hlow := k.le_toInt
    have hhigh := k.toInt_lt
    have hwhole : (k.toInt * Double.unitsPerOne).tdiv Double.unitsPerOne = k.toInt :=
      Int.mul_tdiv_cancel _ (Int.ne_of_gt Quantity.unitsPerOne_pos)
    have hclamp : max Int64.minValue.toInt (min Int64.maxValue.toInt k.toInt) = k.toInt := by
      rw [Int64.toInt_minValue, Int64.toInt_maxValue]
      omega
    rw [Quantity.ofInt, Quantity.fold, hwhole, hclamp, Int64.ofInt_toInt]
  cases n with
  | int n =>
    rw [quantity, ← Int32.toInt_toInt64]
    exact hint n.toInt64
  | long n => exact hint n
  | double d =>
    show d.toInt64 = d.quantity.fold
    unfold Double.toInt64 Double.quantity
    split_ifs <;> rfl

namespace Value

mutual

/-- The value with every number in it replaced by the integer it is folded to. -/
def foldNumbers : Value → Value
  | number n => long n.fold
  | object fields => object (foldFields fields)
  | array items => array (foldItems items)
  | codeWithScope source scope => codeWithScope source (foldFields scope)
  | v => v

def foldItems : List Value → List Value
  | [] => []
  | item :: rest => foldNumbers item :: foldItems rest

def foldFields : List (String × Value) → List (String × Value)
  | [] => []
  | (name, value) :: rest => (name, foldNumbers value) :: foldFields rest

end

variable {v w : Value} {vs ws : List Value} {xs ys : List (String × Value)}

@[simp] lemma rank_foldNumbers (v : Value) : v.foldNumbers.rank = v.rank := by
  cases v <;> simp [foldNumbers, long]

@[simp] lemma length_foldItems (vs : List Value) : (foldItems vs).length = vs.length := by
  induction vs with
  | nil => rfl
  | cons v vs ih => rw [foldItems, List.length_cons, List.length_cons, ih]

@[simp] lemma length_foldFields (xs : List (String × Value)) : (foldFields xs).length = xs.length := by
  induction xs with
  | nil => rfl
  | cons x xs ih => rw [foldFields, List.length_cons, List.length_cons, ih]

/-! ## Values that are laid out alike -/

lemma rankBytes_congr (h : v.rank = w.rank) : rankBytes v = rankBytes w := by
  rw [rankBytes, rankBytes, h]

lemma itemBytes_cons (v : Value) (vs : List Value) : itemBytes (v :: vs) = v.hashInput ++ itemBytes vs := rfl

lemma fieldBytes_cons (name : String) (v : Value) (xs : List (String × Value)) :
    fieldBytes ((name, v) :: xs) = textBytes name ++ (v.hashInput ++ fieldBytes xs) := by
  rw [fieldBytes, hashInput, List.append_assoc, List.append_assoc, List.append_assoc]

lemma itemBytes_foldItems (h : ∀ v ∈ vs, v.foldNumbers.hashInput = v.hashInput) :
    itemBytes (foldItems vs) = itemBytes vs := by
  induction vs with
  | nil => rfl
  | cons v vs ih =>
    rw [List.forall_mem_cons] at h
    rw [foldItems, itemBytes_cons, itemBytes_cons, h.1, ih h.2]

lemma fieldBytes_foldFields (h : ∀ v ∈ xs.map Prod.snd, v.foldNumbers.hashInput = v.hashInput) :
    fieldBytes (foldFields xs) = fieldBytes xs := by
  induction xs with
  | nil => rfl
  | cons x xs ih =>
    rw [List.map_cons, List.forall_mem_cons] at h
    rw [foldFields, fieldBytes_cons, fieldBytes_cons, h.1, ih h.2]

/-- Numbers are laid out folded already. -/
lemma hashInput_foldNumbers (v : Value) : v.foldNumbers.hashInput = v.hashInput := by
  induction v using induction_children with
  | step v ih =>
    rw [hashInput, hashInput, rankBytes_congr (rank_foldNumbers v)]
    refine congrArg (rankBytes v ++ ·) ?_
    cases v with
    | number n => rfl
    | object xs => rw [foldNumbers, contentBytes, contentBytes, length_foldFields, fieldBytes_foldFields ih]
    | array vs =>
      have hitems : itemBytes (foldItems vs) = itemBytes vs := itemBytes_foldItems ih
      rw [foldNumbers, contentBytes, contentBytes, length_foldItems, hitems]
    | codeWithScope s xs => rw [foldNumbers, contentBytes, contentBytes, length_foldFields, fieldBytes_foldFields ih]
    | _ => rfl

lemma itemBytes_congr (h : ∀ v ∈ vs, ∀ w, v.compare w = .eq → v.hashInput = w.hashInput)
    (heq : compareItems vs ws = .eq) : vs.length = ws.length ∧ itemBytes vs = itemBytes ws := by
  induction vs generalizing ws with
  | nil =>
    cases ws with
    | nil => exact ⟨rfl, rfl⟩
    | cons w ws => cases heq
  | cons v vs ih =>
    cases ws with
    | nil => cases heq
    | cons w ws =>
      rw [List.forall_mem_cons] at h
      rw [compareItems, Ordering.then_eq_eq] at heq
      obtain ⟨hlength, hrest⟩ := ih h.2 heq.2
      rw [itemBytes_cons, itemBytes_cons, h.1 w heq.1, hrest, List.length_cons, List.length_cons, hlength]
      exact ⟨rfl, rfl⟩

lemma fieldBytes_congr (h : ∀ v ∈ xs.map Prod.snd, ∀ w, v.compare w = .eq → v.hashInput = w.hashInput)
    (heq : compareFields xs ys = .eq) : xs.length = ys.length ∧ fieldBytes xs = fieldBytes ys := by
  induction xs generalizing ys with
  | nil =>
    cases ys with
    | nil => exact ⟨rfl, rfl⟩
    | cons y ys => cases heq
  | cons x xs ih =>
    cases ys with
    | nil => cases heq
    | cons y ys =>
      rw [List.map_cons, List.forall_mem_cons] at h
      simp only [compareFields, Ordering.then_eq_eq] at heq
      obtain ⟨-, hname, hvalue, hfields⟩ := heq
      obtain ⟨hlength, hrest⟩ := ih h.2 hfields
      rw [fieldBytes_cons, fieldBytes_cons, Std.LawfulEqOrd.eq_of_compare hname, h.1 y.2 hvalue, hrest,
        List.length_cons, List.length_cons, hlength]
      exact ⟨rfl, rfl⟩

/-- Equal values are laid out alike. -/
theorem hashInput_congr (h : v.compare w = .eq) : v.hashInput = w.hashInput := by
  induction v using induction_children generalizing w with
  | step v ih =>
    have hrank : v.rank = w.rank := rank_eq_of_beq (beq_iff_compare.2 h)
    rw [hashInput, hashInput, rankBytes_congr hrank]
    refine congrArg (rankBytes w ++ ·) ?_
    cases sameBracket_of_rank_eq hrank <;> simp only [Value.compare, Ordering.then_eq_eq] at h
    case number m n =>
      rw [Number.compare_eq] at h
      rw [contentBytes, contentBytes, Number.fold_eq, Number.fold_eq n, Quantity.eq_of_compare_eq h]
    case object xs ys =>
      obtain ⟨hlength, hfields⟩ := fieldBytes_congr (fun v hv w => ih v hv) h
      rw [contentBytes, contentBytes, hlength, hfields]
    case array vs ws =>
      obtain ⟨hlength, hitems⟩ : vs.length = ws.length ∧ itemBytes vs = itemBytes ws :=
        itemBytes_congr (fun v hv w => ih v hv) h
      rw [contentBytes, contentBytes, hlength, hitems]
    case codeWithScope s t xs ys =>
      obtain ⟨hlength, hfields⟩ := fieldBytes_congr (fun v hv w => ih v hv) h.2
      rw [contentBytes, contentBytes, hlength, hfields, Std.LawfulEqOrd.eq_of_compare h.1]
    case binData s t bs cs =>
      obtain ⟨-, hsubtype, hbytes⟩ := h
      rw [contentBytes, contentBytes, Std.LawfulEqOrd.eq_of_compare hsubtype, Std.LawfulEqOrd.eq_of_compare hbytes]
    case regex p f q g =>
      rw [contentBytes, contentBytes, Std.LawfulEqOrd.eq_of_compare h.1, Std.LawfulEqOrd.eq_of_compare h.2]
    -- the others have one component or none
    all_goals first | rfl | rw [contentBytes, contentBytes, Std.LawfulEqOrd.eq_of_compare h]

end Value

/-! ## Reading back -/

/-- Two streams of which one begins with `a` and the other with `b` are equal only if `P` holds, and then what
follows is equal too. -/
def ReadsBack (a b : List UInt8) (P : Prop) : Prop := ∀ s t, a ++ s = b ++ t → P ∧ s = t

namespace ReadsBack

variable {a b a' b' : List UInt8} {P P' : Prop}

lemma imp (h : ReadsBack a b P) (hP : P → P') : ReadsBack a b P' := fun s t heq => (h s t heq).imp_left hP

lemma of_length_eq (h : a.length = b.length) : ReadsBack a b (a = b) := fun _ _ heq => List.append_inj heq h

lemma cons {x y : UInt8} (h : ReadsBack a b P) : ReadsBack (x :: a) (y :: b) (x = y ∧ P) := by
  intro s t heq
  obtain ⟨hxy, hrest⟩ := List.cons.inj heq
  obtain ⟨hP, hst⟩ := h s t hrest
  exact ⟨⟨hxy, hP⟩, hst⟩

/-- The first parts are read back first, and the second parts with what they say. -/
lemma append (h : ReadsBack a b P) (h' : P → ReadsBack a' b' P') : ReadsBack (a ++ a') (b ++ b') (P ∧ P') := by
  intro s t heq
  rw [List.append_assoc, List.append_assoc] at heq
  obtain ⟨hP, heq⟩ := h _ _ heq
  obtain ⟨hP', heq⟩ := h' hP _ _ heq
  exact ⟨⟨hP, hP'⟩, heq⟩

end ReadsBack

namespace Value

variable {v w : Value} {vs ws : List Value} {xs ys : List (String × Value)} {m n width : Nat}

/-! ## Numbers of a fixed width -/

lemma toUInt8_eq_iff : m.toUInt8 = n.toUInt8 ↔ m % 256 = n % 256 := by
  rw [← UInt8.toNat_inj, Nat.toUInt8_eq, Nat.toUInt8_eq, UInt8.toNat_ofNat', UInt8.toNat_ofNat']

/-- The digits of a number determine it as far as they go. -/
lemma eq_of_digits_eq (hm : m < Nat.pow 256 width) (hn : n < Nat.pow 256 width)
    (h : ∀ i < width, (m / Nat.pow 256 i).toUInt8 = (n / Nat.pow 256 i).toUInt8) : m = n := by
  have hmod (k : Nat) (hk : k ≤ width) : m % Nat.pow 256 k = n % Nat.pow 256 k := by
    induction k with
    | zero =>
      rw [show Nat.pow 256 0 = 1 from rfl, Nat.mod_one, Nat.mod_one]
    | succ k ih =>
      have hdigit := toUInt8_eq_iff.1 (h k hk)
      have hlow := ih (Nat.le_of_succ_le hk)
      rw [show Nat.pow 256 (k + 1) = Nat.pow 256 k * 256 from rfl, Nat.mod_mul, Nat.mod_mul, hlow, hdigit]
  have hall := hmod width le_rfl
  rwa [Nat.mod_eq_of_lt hm, Nat.mod_eq_of_lt hn] at hall

lemma littleEndian_inj (hm : m < Nat.pow 256 width) (hn : n < Nat.pow 256 width)
    (h : littleEndian width m = littleEndian width n) : m = n :=
  eq_of_digits_eq hm hn fun i hi => List.map_inj_left.1 h i (List.mem_range.2 hi)

lemma littleEndian_readsBack (hm : m < Nat.pow 256 width) (hn : n < Nat.pow 256 width) :
    ReadsBack (littleEndian width m) (littleEndian width n) (m = n) := by
  refine (ReadsBack.of_length_eq ?_).imp (littleEndian_inj hm hn)
  rw [littleEndian, littleEndian, List.length_map, List.length_map]

lemma uint64_readsBack (m n : UInt64) : ReadsBack (littleEndian 8 m.toNat) (littleEndian 8 n.toNat) (m = n) :=
  (littleEndian_readsBack m.toNat_lt n.toNat_lt).imp UInt64.toNat_inj.1

lemma int64_readsBack (m n : Int64) :
    ReadsBack (littleEndian 8 m.toUInt64.toNat) (littleEndian 8 n.toUInt64.toNat) (m = n) :=
  (uint64_readsBack m.toUInt64 n.toUInt64).imp fun h => by
    rw [← m.toInt64_toUInt64, h, n.toInt64_toUInt64]

/-- Brackets are few enough for their ranks to be told apart in four bytes. -/
lemma rankBytes_readsBack (v w : Value) : ReadsBack (rankBytes v) (rankBytes w) (v.rank = w.rank) := by
  have hrank (v : Value) : (BitVec.ofInt 32 v.rank).toInt = v.rank := by
    cases v with
    | number n => rw [rank_number]; rfl
    | _ => rfl
  refine (littleEndian_readsBack (BitVec.isLt _) (BitVec.isLt _)).imp fun h => ?_
  rw [← hrank v, ← hrank w, BitVec.eq_of_toNat_eq h]

lemma idBytes_readsBack (x y : BitVec 96) : ReadsBack (idBytes x) (idBytes y) (x = y) := by
  refine (ReadsBack.of_length_eq ?_).imp fun h => ?_
  · rw [idBytes, idBytes, List.length_map, List.length_map]
  · have hx : x.toNat < Nat.pow 256 12 := x.isLt
    have hy : y.toNat < Nat.pow 256 12 := y.isLt
    refine BitVec.eq_of_toNat_eq (eq_of_digits_eq hx hy fun i hi => ?_)
    have hdigit := List.map_inj_left.1 h (11 - i) (List.mem_range.2 (by omega))
    rwa [Nat.sub_sub_self (Nat.le_of_lt_succ hi)] at hdigit

/-! ## Parts with their length in front -/

lemma bytesOf_toList (bytes : ByteArray) : bytes.toList = bytes.data.toList := by
  have hloop (i : Nat) (front : List UInt8) :
      ByteArray.toList.loop bytes i front = front.reverse ++ bytes.data.toList.drop i := by
    fun_induction ByteArray.toList.loop bytes i front with
    | case1 i front hi ih =>
      have hi : i < bytes.data.size := hi
      have hget : bytes.get! i = bytes.data[i] := getElem!_pos bytes.data i hi
      have hdrop : bytes.data.toList.drop i = bytes.get! i :: bytes.data.toList.drop (i + 1) := by
        rw [hget, List.drop_eq_getElem_cons (Array.length_toList ▸ hi), Array.getElem_toList]
      rw [ih, hdrop, List.reverse_cons, List.append_assoc, List.singleton_append]
    | case2 i front hi =>
      have hi : bytes.data.toList.length ≤ i := Array.length_toList ▸ Nat.le_of_not_lt hi
      rw [List.drop_eq_nil_of_le hi, List.append_nil]
  exact hloop 0 []

lemma length_toUTF8 (s : String) : s.toUTF8.toList.length = s.utf8ByteSize := by
  rw [bytesOf_toList, Array.length_toList]
  exact String.size_toByteArray

lemma toUTF8_inj {s t : String} (h : s.toUTF8.toList = t.toUTF8.toList) : s = t := by
  rw [bytesOf_toList, bytesOf_toList, Array.toList_inj] at h
  exact String.toByteArray_inj.1 (ByteArray.ext h)

/-- The lengths that are written down for a value, those for the values inside it apart. -/
def lengths : Value → List Nat
  | string s | symbol s | code s => [s.utf8ByteSize]
  | object xs => xs.length :: xs.map fun x => x.1.utf8ByteSize
  | array vs => [vs.length]
  | binData _ bytes => [bytes.length]
  | regex pattern flags => [pattern.utf8ByteSize, flags.utf8ByteSize]
  | codeWithScope source scope => source.utf8ByteSize :: scope.length :: scope.map fun x => x.1.utf8ByteSize
  | _ => []

/-- Eight bytes are enough for every length, in the value and in all that is inside it.  Texts and lists that
are kept in the memory of a machine with addresses of 64 bits are shorter than that. -/
inductive Fits : Value → Prop where
  | intro {v : Value} (own : ∀ n ∈ v.lengths, n < UInt64.size) (inner : ∀ w ∈ v.children, Fits w) : Fits v

/-- What comes behind its length is read back with that length. -/
lemma counted_readsBack {a b : List UInt8} {P : Prop} (hm : m < UInt64.size) (hn : n < UInt64.size)
    (h : m = n → ReadsBack a b P) : ReadsBack (littleEndian 8 m ++ a) (littleEndian 8 n ++ b) P := by
  have hlength : ReadsBack (littleEndian 8 m) (littleEndian 8 n) (m = n) := littleEndian_readsBack hm hn
  exact (hlength.append h).imp And.right

lemma textBytes_readsBack {s t : String} (hs : s.utf8ByteSize < UInt64.size) (ht : t.utf8ByteSize < UInt64.size) :
    ReadsBack (textBytes s) (textBytes t) (s = t) := by
  rw [← length_toUTF8] at hs ht
  refine counted_readsBack hs ht fun hlength => ?_
  exact (ReadsBack.of_length_eq hlength).imp toUTF8_inj

/-- Streams that begin with the two values laid out are equal only if the values are, numbers folded. -/
def Readable (v w : Value) : Prop :=
  ReadsBack v.hashInput w.hashInput (v.foldNumbers.compare w.foldNumbers = .eq)

lemma itemBytes_readsBack (h : ∀ v ∈ vs, ∀ w ∈ ws, Readable v w) (hlength : vs.length = ws.length) :
    ReadsBack (itemBytes vs) (itemBytes ws) (compareItems (foldItems vs) (foldItems ws) = .eq) := by
  induction vs generalizing ws with
  | nil =>
    obtain rfl := List.eq_nil_of_length_eq_zero hlength.symm
    exact (ReadsBack.of_length_eq rfl).imp fun _ => rfl
  | cons v vs ih =>
    obtain ⟨w, ws, rfl⟩ := List.exists_cons_of_length_eq_add_one hlength.symm
    have hfirst : Readable v w := h v (List.mem_cons_self ..) w (List.mem_cons_self ..)
    have hrest := ih (fun v hv w hw => h v (List.mem_cons_of_mem _ hv) w (List.mem_cons_of_mem _ hw))
      (Nat.succ.inj hlength)
    rw [itemBytes_cons, itemBytes_cons]
    refine (hfirst.append fun _ => hrest).imp fun heq => ?_
    rw [foldItems, foldItems, compareItems, Ordering.then_eq_eq]
    exact heq

lemma fieldBytes_readsBack (hxs : ∀ n ∈ xs.map (fun x => x.1.utf8ByteSize), n < UInt64.size)
    (hys : ∀ n ∈ ys.map (fun y => y.1.utf8ByteSize), n < UInt64.size)
    (h : ∀ v ∈ xs.map Prod.snd, ∀ w ∈ ys.map Prod.snd, Readable v w) (hlength : xs.length = ys.length) :
    ReadsBack (fieldBytes xs) (fieldBytes ys) (compareFields (foldFields xs) (foldFields ys) = .eq) := by
  induction xs generalizing ys with
  | nil =>
    obtain rfl := List.eq_nil_of_length_eq_zero hlength.symm
    exact (ReadsBack.of_length_eq rfl).imp fun _ => rfl
  | cons x xs ih =>
    obtain ⟨y, ys, rfl⟩ := List.exists_cons_of_length_eq_add_one hlength.symm
    rw [List.map_cons, List.forall_mem_cons] at hxs hys
    rw [List.map_cons, List.map_cons] at h
    have hname := textBytes_readsBack hxs.1 hys.1
    have hfirst : Readable x.2 y.2 := h _ (List.mem_cons_self ..) _ (List.mem_cons_self ..)
    have hrest := ih hxs.2 hys.2 (fun v hv w hw => h v (List.mem_cons_of_mem _ hv) w (List.mem_cons_of_mem _ hw))
      (Nat.succ.inj hlength)
    rw [fieldBytes_cons, fieldBytes_cons]
    refine (hname.append fun _ => hfirst.append fun _ => hrest).imp fun heq => ?_
    obtain ⟨hname, hvalue, hfields⟩ := heq
    have hrank : x.2.foldNumbers.rank = y.2.foldNumbers.rank := rank_eq_of_beq (beq_iff_compare.2 hvalue)
    simp only [foldFields, compareFields, Ordering.then_eq_eq]
    exact ⟨hrank ▸ Std.compare_self, hname ▸ Std.compare_self, hvalue, hfields⟩

/-- **Reading back.**  A stream that begins with a laid out value shows where the value ends, and the value
itself but for what folding and equality leave out. -/
theorem readable_of_fits (hv : v.Fits) (hw : w.Fits) : Readable v w := by
  induction v using induction_children generalizing w with
  | step v ih =>
    obtain ⟨hown, hinner⟩ := hv
    obtain ⟨hown', hinner'⟩ := hw
    have hchildren : ∀ u ∈ v.children, ∀ u' ∈ w.children, Readable u u' := fun u hu u' hu' =>
      ih u hu (hinner u hu) (hinner' u' hu')
    suffices hcontent : v.rank = w.rank →
        ReadsBack v.contentBytes w.contentBytes (v.foldNumbers.compare w.foldNumbers = .eq) from
      ((rankBytes_readsBack v w).append hcontent).imp And.right
    intro hrank
    cases sameBracket_of_rank_eq hrank
    case number m n =>
      refine (int64_readsBack m.fold n.fold).imp fun h => ?_
      rw [foldNumbers, foldNumbers, h]
      exact Std.compare_self
    case object xs ys =>
      obtain ⟨hlength, hnames⟩ := List.forall_mem_cons.1 hown
      obtain ⟨hlength', hnames'⟩ := List.forall_mem_cons.1 hown'
      exact counted_readsBack hlength hlength' (fieldBytes_readsBack hnames hnames' hchildren)
    case array vs ws =>
      have hlength := List.forall_mem_singleton.1 hown
      have hlength' := List.forall_mem_singleton.1 hown'
      exact counted_readsBack hlength hlength' (itemBytes_readsBack hchildren)
    case codeWithScope s t xs ys =>
      obtain ⟨hsource, hown⟩ := List.forall_mem_cons.1 hown
      obtain ⟨hlength, hnames⟩ := List.forall_mem_cons.1 hown
      obtain ⟨hsource', hown'⟩ := List.forall_mem_cons.1 hown'
      obtain ⟨hlength', hnames'⟩ := List.forall_mem_cons.1 hown'
      have hscope := counted_readsBack hlength hlength' (fieldBytes_readsBack hnames hnames' hchildren)
      rw [contentBytes, contentBytes, List.append_assoc, List.append_assoc]
      refine ((textBytes_readsBack hsource hsource').append fun _ => hscope).imp fun h => ?_
      exact Ordering.then_eq_eq.2 ⟨Std.compare_eq_iff_eq.2 h.1, h.2⟩
    case binData s t bs cs =>
      have hlength := List.forall_mem_singleton.1 hown
      have hlength' := List.forall_mem_singleton.1 hown'
      have hbytes : ReadsBack (littleEndian 8 bs.length ++ bs) (littleEndian 8 cs.length ++ cs) (bs = cs) :=
        counted_readsBack hlength hlength' ReadsBack.of_length_eq
      refine hbytes.cons.imp fun h => ?_
      obtain ⟨rfl, rfl⟩ := h
      show compare (binData s bs) (binData s bs) = .eq
      exact Std.compare_self
    case regex p f q g =>
      obtain ⟨hpattern, hown⟩ := List.forall_mem_cons.1 hown
      obtain ⟨hpattern', hown'⟩ := List.forall_mem_cons.1 hown'
      have hflags : ReadsBack (textBytes f) (textBytes g) (f = g) :=
        textBytes_readsBack (hown _ (List.mem_singleton_self _)) (hown' _ (List.mem_singleton_self _))
      refine ((textBytes_readsBack hpattern hpattern').append fun _ => hflags).imp fun h => ?_
      exact Ordering.then_eq_eq.2 ⟨Std.compare_eq_iff_eq.2 h.1, Std.compare_eq_iff_eq.2 h.2⟩
    case objectId x y => exact (idBytes_readsBack x y).imp Std.compare_eq_iff_eq.2
    case date x y => exact (int64_readsBack x y).imp Std.compare_eq_iff_eq.2
    case timestamp x y => exact (uint64_readsBack x y).imp Std.compare_eq_iff_eq.2
    case bool b c =>
      have hone : (bool b).contentBytes.length = (bool c).contentBytes.length := rfl
      refine (ReadsBack.of_length_eq hone).imp fun h => ?_
      cases b <;> cases c <;> first | rfl | cases h
    case symbol s t | string s t | symbolString s t | stringSymbol s t | code s t =>
      have htext : ReadsBack (textBytes s) (textBytes t) (s = t) :=
        textBytes_readsBack (hown _ (List.mem_singleton_self _)) (hown' _ (List.mem_singleton_self _))
      exact htext.imp Std.compare_eq_iff_eq.2
    -- brackets of one value
    all_goals exact (ReadsBack.of_length_eq rfl).imp fun _ => rfl

/-- **Layouts.**  Two values are laid out alike exactly if they are equal once their numbers are folded.  So
equal values have one hash key, whatever the width of the numbers and the type of the texts in them. -/
theorem hashInput_eq_iff (x y : Value) :
    (x.Fits → y.Fits → (x.hashInput = y.hashInput ↔ (x.foldNumbers == y.foldNumbers) = true)) ∧
      ((x == y) = true → x.hashKey = y.hashKey) := by
  refine ⟨fun hx hy => ⟨fun h => ?_, fun h => ?_⟩, fun h => ?_⟩
  · have hread := readable_of_fits hx hy [] []
    rw [List.append_nil, List.append_nil] at hread
    exact beq_iff_compare.2 (hread h).1
  · have hfolded := hashInput_congr (beq_iff_compare.1 h)
    rwa [hashInput_foldNumbers, hashInput_foldNumbers] at hfolded
  · rw [hashKey, hashKey, hashInput_congr (beq_iff_compare.1 h)]

/-- `2.5` is laid out as `2` is, so different values meet; values that are equal always do. -/
theorem hashInput_eq_nested :
    let x : Value := object [("a", array [int 1, double ⟨0x4004000000000000⟩]), ("b", string "t")]
    let y : Value := object [("a", array [double ⟨0x3ff0000000000000⟩, long 2]), ("b", symbol "t")]
    let z : Value := object [("a", array [long 1, double ⟨0x4000000000000000⟩]), ("b", string "t")]
    x.Fits ∧ y.Fits ∧ x.hashInput = y.hashInput ∧ (x == y) = false ∧ (y == z) = true ∧ y.hashKey = z.hashKey := by
  intro x y z
  have hnumber (n : Number) : (number n).Fits := .intro nofun nofun
  have hitems (m n : Number) : (array [number m, number n]).Fits :=
    .intro (by simp [lengths, UInt64.size]) (List.forall_mem_cons.2 ⟨hnumber m, List.forall_mem_singleton.2 (hnumber n)⟩)
  have hx : x.Fits := .intro (by decide)
    (List.forall_mem_cons.2 ⟨hitems _ _, List.forall_mem_singleton.2 (.intro (by decide) nofun)⟩)
  have hy : y.Fits := .intro (by decide)
    (List.forall_mem_cons.2 ⟨hitems _ _, List.forall_mem_singleton.2 (.intro (by decide) nofun)⟩)
  have hfolded : (x.foldNumbers == y.foldNumbers) = true := by decide +kernel
  have heq : (y == z) = true := by decide +kernel
  exact ⟨hx, hy, ((hashInput_eq_iff x y).1 hx hy).2 hfolded, by decide +kernel, heq, (hashInput_eq_iff y z).2 heq⟩

end Value

end ScanBounds
