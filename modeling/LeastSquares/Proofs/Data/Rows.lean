import LeastSquares.Dataset
import LeastSquares.Proofs.MachineNumbers

namespace LeastSquares

open Scalar

namespace Dataset

variable {α : Type} [Scalar α]

/-! ## Columns -/

theorem toList_x (data : Dataset α) : data.x.toList = data.rows.map Prod.fst := rfl

theorem toList_y (data : Dataset α) : data.y.toList = data.rows.map Prod.snd := rfl

theorem zip_columns (data : Dataset α) : data.x.toList.zip data.y.toList = data.rows := by
  rw [toList_x, toList_y]
  exact (List.zip_of_prod rfl rfl).symm

theorem columns_of_rows {data : Dataset α} {x y : List α} (zipped : data.rows = x.zip y)
    (equallyLong : x.length = y.length) : data.x.toList = x ∧ data.y.toList = y := by
  rw [toList_x, toList_y, zipped]
  exact ⟨List.map_fst_zip equallyLong.le, List.map_snd_zip equallyLong.ge⟩

theorem isUsable_eq_true {row : α × α} :
    isUsable row = true ↔ isFinite row.1 = true ∧ isFinite row.2 = true :=
  Bool.and_eq_true_iff

theorem isUsable_of_mem (data : Dataset α) {row : α × α} (member : row ∈ data.rows) :
    isUsable row = true :=
  isUsable_eq_true.mpr (data.finite row member)

theorem isFinite_of_mem_x (data : Dataset α) {sample : α} (member : sample ∈ data.x.toList) :
    isFinite sample = true := by
  rw [toList_x, List.mem_map] at member
  obtain ⟨row, found, rfl⟩ := member
  exact (data.finite row found).1

theorem isFinite_of_mem_y (data : Dataset α) {value : α} (member : value ∈ data.y.toList) :
    isFinite value = true := by
  rw [toList_y, List.mem_map] at member
  obtain ⟨row, found, rfl⟩ := member
  exact (data.finite row found).2

/-! ## Loading -/

theorem ofRows_eq_ok_iff {rows : List (α × α)} {data : Dataset α} :
    ofRows rows = .ok data ↔ data.rows = rows := by
  unfold ofRows
  constructor
  · intro accepted
    split at accepted
    · cases accepted
    · split at accepted
      · cases accepted
        rfl
      · cases accepted
  · rintro rfl
    rw [dif_neg data.nonempty, dif_pos fun row => data.isUsable_of_mem]

theorem exists_ofRows_eq_ok {rows : List (α × α)} (nonempty : rows ≠ [])
    (usable : ∀ row ∈ rows, isUsable row = true) : ∃ data, ofRows rows = .ok data :=
  ⟨⟨rows, nonempty, fun row member => isUsable_eq_true.mp (usable row member)⟩,
    ofRows_eq_ok_iff.mpr rfl⟩

theorem ofColumns_eq_ok_iff {x y : List α} {data : Dataset α} :
    ofColumns x y = .ok data ↔ data.x.toList = x ∧ data.y.toList = y := by
  unfold ofColumns
  constructor
  · intro accepted
    split at accepted
    · rename_i equallyLong
      exact columns_of_rows (ofRows_eq_ok_iff.mp accepted) equallyLong
    · cases accepted
  · rintro ⟨rfl, rfl⟩
    rw [if_pos (by simp), ofRows_eq_ok_iff, zip_columns]

theorem ofRaw_eq_ok_iff {x y : List α} {data : Dataset α} :
    ofRaw x y = .ok data ↔ data.rows = (x.zip y).filter isUsable := by
  unfold ofRaw
  dsimp only
  split
  · rename_i none
    rw [none]
    exact ⟨nofun, fun empty => absurd empty data.nonempty⟩
  · exact ofRows_eq_ok_iff

theorem exists_ofRaw_eq_ok {x y : List α} (some_row : (x.zip y).filter isUsable ≠ []) :
    ∃ data, ofRaw x y = .ok data := by
  obtain ⟨data, accepted⟩ := exists_ofRows_eq_ok some_row fun row => List.of_mem_filter
  exact ⟨data, ofRaw_eq_ok_iff.mpr (ofRows_eq_ok_iff.mp accepted)⟩

theorem ofRaw_eq_error {x y : List α} {cause : Error α} (refused : ofRaw x y = .error cause) :
    cause = .noUsableRows := by
  by_cases none : (x.zip y).filter isUsable = []
  · rw [ofRaw, if_pos none] at refused
    cases refused
    rfl
  · obtain ⟨data, accepted⟩ := exists_ofRaw_eq_ok none
    rw [accepted] at refused
    cases refused

theorem ofRaw_columns (data : Dataset α) : ofRaw data.x.toList data.y.toList = .ok data := by
  rw [ofRaw_eq_ok_iff, zip_columns, List.filter_eq_self.mpr fun row => data.isUsable_of_mem]

/-! ## Usable rows -/

def UsableAt (x y : List α) (row : Nat) : Prop :=
  ∃ a b, x[row]? = some a ∧ y[row]? = some b ∧ isFinite a = true ∧ isFinite b = true

theorem usableAt_iff {x y : List α} {row : Nat} :
    UsableAt x y row ↔ ∃ pair, (x.zip y)[row]? = some pair ∧ isUsable pair = true := by
  constructor
  · rintro ⟨a, b, left, right, finite, finiteToo⟩
    exact ⟨(a, b), List.getElem?_zip_eq_some.mpr ⟨left, right⟩,
      isUsable_eq_true.mpr ⟨finite, finiteToo⟩⟩
  · rintro ⟨⟨a, b⟩, found, usable⟩
    obtain ⟨left, right⟩ := List.getElem?_zip_eq_some.mp found
    obtain ⟨finite, finiteToo⟩ := isUsable_eq_true.mp usable
    exact ⟨a, b, left, right, finite, finiteToo⟩

theorem usable_iff {x y : List α} (equallyLong : x.length = y.length) :
    (∀ row < x.length, UsableAt x y row) ↔
      (∀ a ∈ x, isFinite a = true) ∧ ∀ b ∈ y, isFinite b = true := by
  constructor
  · intro usable
    constructor
    · intro a member
      obtain ⟨row, bound, rfl⟩ := List.getElem_of_mem member
      obtain ⟨a, b, left, -, finite, -⟩ := usable row bound
      rwa [(List.getElem?_eq_some_iff.mp left).2]
    · intro b member
      obtain ⟨row, bound, rfl⟩ := List.getElem_of_mem member
      obtain ⟨a, b, -, right, -, finite⟩ := usable row (by omega)
      rwa [(List.getElem?_eq_some_iff.mp right).2]
  · rintro ⟨finite, finiteToo⟩ row bound
    exact ⟨x[row], y[row], List.getElem?_eq_getElem bound,
      List.getElem?_eq_getElem (equallyLong ▸ bound), finite _ (List.getElem_mem _),
      finiteToo _ (List.getElem_mem _)⟩

theorem exists_usable_iff {x y : List α} :
    (∃ row, UsableAt x y row) ↔ (x.zip y).filter isUsable ≠ [] := by
  constructor
  · rintro ⟨row, usable⟩
    obtain ⟨pair, found, usable⟩ := usableAt_iff.mp usable
    exact List.ne_nil_of_mem (List.mem_filter.mpr ⟨List.mem_of_getElem? found, usable⟩)
  · intro some_row
    obtain ⟨pair, member⟩ := List.exists_mem_of_ne_nil _ some_row
    obtain ⟨member, usable⟩ := List.mem_filter.mp member
    obtain ⟨row, found⟩ := List.mem_iff_getElem?.mp member
    exact ⟨row, usableAt_iff.mpr ⟨pair, found, usable⟩⟩

theorem ofColumns_eq_error {x y : List α} {cause : Error α} (equallyLong : x.length = y.length)
    (nonempty : x ≠ []) (refused : ofColumns x y = .error cause) :
    ∃ row, cause = .nonFiniteRow row ∧ row < x.length ∧ ¬ UsableAt x y row ∧
      ∀ earlier < row, UsableAt x y earlier := by
  have rows : x.zip y ≠ [] := by
    rw [← List.length_pos_iff, List.length_zip, ← equallyLong, Nat.min_self]
    exact List.length_pos_iff.mpr nonempty
  rw [ofColumns, if_pos equallyLong, ofRows, dif_neg rows] at refused
  split at refused
  · cases refused
  · rename_i unusable
    cases refused
    push Not at unusable
    obtain ⟨pair, member, unusable⟩ := unusable
    have bound : (x.zip y).findIdx (fun row => !isUsable row) < (x.zip y).length :=
      List.findIdx_lt_length_of_exists ⟨pair, member, by simpa using unusable⟩
    refine ⟨_, rfl, ?_, fun usable => ?_, fun earlier before => ?_⟩
    · rw [List.length_zip] at bound
      omega
    · obtain ⟨pair, found, usable⟩ := usableAt_iff.mp usable
      have first := List.findIdx_getElem (w := bound)
      rw [(List.getElem?_eq_some_iff.mp found).2, usable] at first
      cases first
    · have usable := List.not_of_lt_findIdx before
      rw [Bool.not_eq_false'] at usable
      exact usableAt_iff.mpr ⟨_, List.getElem?_eq_getElem _, usable⟩

theorem exists_ofColumns_eq_ok_iff {x y : List α} : (∃ data, ofColumns x y = .ok data) ↔
    x.length = y.length ∧ x ≠ [] ∧ (∀ a ∈ x, isFinite a = true) ∧ ∀ b ∈ y, isFinite b = true := by
  constructor
  · rintro ⟨data, accepted⟩
    obtain ⟨rfl, rfl⟩ := ofColumns_eq_ok_iff.mp accepted
    refine ⟨by simp, ?_, fun a => data.isFinite_of_mem_x, fun b => data.isFinite_of_mem_y⟩
    rw [toList_x, ne_eq, List.map_eq_nil_iff]
    exact data.nonempty
  · rintro ⟨equallyLong, nonempty, finite⟩
    cases result : ofColumns x y with
    | ok data => exact ⟨data, rfl⟩
    | error cause =>
        obtain ⟨row, -, bound, unusable, -⟩ := ofColumns_eq_error equallyLong nonempty result
        exact absurd ((usable_iff equallyLong).mpr finite row bound) unusable

theorem exists_places {β : Type} (p : β → Bool) (entries : List β) :
    ∃ places : List Nat, places.Pairwise (· < ·) ∧
      (∀ place, place ∈ places ↔ ∃ entry, entries[place]? = some entry ∧ p entry = true) ∧
      (entries.filter p).map some = places.map (entries[·]?) := by
  refine ⟨(List.range entries.length).filter fun place => entries[place]?.any p,
    List.pairwise_lt_range.filter _, fun place => ?_, ?_⟩
  · rw [List.mem_filter, List.mem_range, Option.any_eq_true]
    constructor
    · exact fun passes => passes.2
    · rintro ⟨entry, found, passes⟩
      exact ⟨(List.getElem?_eq_some_iff.mp found).1, entry, found, passes⟩
  · have all : entries.map some = (List.range entries.length).map (entries[·]?) := by
      apply List.ext_getElem?
      intro place
      by_cases bound : place < entries.length <;> simp [bound]
    calc (entries.filter p).map some
      _ = (entries.map some).filter (Option.any p) := by rw [List.filter_map]; rfl
      _ = ((List.range entries.length).map (entries[·]?)).filter (Option.any p) := by rw [all]
      _ = ((List.range entries.length).filter fun place => entries[place]?.any p).map (entries[·]?) :=
        List.filter_map

theorem ofRaw_places {x y : List α} {data : Dataset α} (accepted : ofRaw x y = .ok data) :
    ∃ places : List Nat, places.Pairwise (· < ·) ∧ (∀ row, row ∈ places ↔ UsableAt x y row) ∧
      data.x.toList.map some = places.map (x[·]?) ∧
      data.y.toList.map some = places.map (y[·]?) := by
  obtain ⟨places, increasing, usable, taken⟩ := exists_places isUsable (x.zip y)
  rw [← ofRaw_eq_ok_iff.mp accepted] at taken
  have columns (row : Nat) (member : row ∈ places) :
      (x.zip y)[row]?.map Prod.fst = x[row]? ∧ (x.zip y)[row]?.map Prod.snd = y[row]? := by
    obtain ⟨pair, found, -⟩ := (usable row).mp member
    obtain ⟨left, right⟩ := List.getElem?_zip_eq_some.mp found
    rw [found, left, right]
    exact ⟨rfl, rfl⟩
  refine ⟨places, increasing, fun row => (usable row).trans usableAt_iff.symm, ?_, ?_⟩
  · calc data.x.toList.map some
      _ = (data.rows.map some).map (Option.map Prod.fst) := by simp [toList_x]
      _ = places.map fun row => (x.zip y)[row]?.map Prod.fst := by rw [taken, List.map_map]; rfl
      _ = places.map (x[·]?) := List.map_congr_left fun row member => (columns row member).1
  · calc data.y.toList.map some
      _ = (data.rows.map some).map (Option.map Prod.snd) := by simp [toList_y]
      _ = places.map fun row => (x.zip y)[row]?.map Prod.snd := by rw [taken, List.map_map]; rfl
      _ = places.map (y[·]?) := List.map_congr_left fun row member => (columns row member).2

/-! ## The range of the samples -/

/-- A choice between two numbers takes the one that comes before the other. -/
structure Chooses (choose : α → α → α) (Before : α → α → Prop) : Prop where
  either (a b : α) : choose a b = a ∨ choose a b = b
  refl {a : α} : isFinite a = true → Before a a
  trans {a b c : α} : Before a b → Before b c → Before a c
  left {a b : α} : isFinite a = true → isFinite b = true → Before (choose a b) a
  right {a b : α} : isFinite a = true → isFinite b = true → Before (choose a b) b

theorem Chooses.foldl {choose : α → α → α} {Before : α → α → Prop} (chooses : Chooses choose Before)
    {first : α} {others : List α} (finite : ∀ a ∈ first :: others, isFinite a = true) :
    others.foldl choose first ∈ first :: others ∧
      ∀ a ∈ first :: others, Before (others.foldl choose first) a := by
  induction others generalizing first with
  | nil =>
      refine ⟨List.mem_cons_self, fun a member => ?_⟩
      obtain rfl := List.mem_singleton.mp member
      exact chooses.refl (finite a List.mem_cons_self)
  | cons second others ih =>
      have finiteFirst := finite first (by simp)
      have finiteSecond := finite second (by simp)
      obtain ⟨found, ahead⟩ := @ih (choose first second) (by
        intro a member
        rcases List.mem_cons.mp member with rfl | member
        · rcases chooses.either first second with same | same <;> rwa [same]
        · exact finite a (by simp [member]))
      have chosen := ahead _ List.mem_cons_self
      refine ⟨?_, fun a member => ?_⟩
      · rw [List.foldl_cons]
        rcases List.mem_cons.mp found with same | later
        · rw [same]
          rcases chooses.either first second with same | same <;> simp [same]
        · simp [later]
      · rw [List.foldl_cons]
        rcases List.mem_cons.mp member with rfl | member
        · exact chooses.trans chosen (chooses.left finiteFirst finiteSecond)
        · rcases List.mem_cons.mp member with rfl | member
          · exact chooses.trans chosen (chooses.right finiteFirst finiteSecond)
          · exact ahead a (List.mem_cons_of_mem _ member)

theorem range_eq (data : Dataset α) : ∃ first others, data.x.toList = first :: others ∧
    data.range = (others.foldl smaller first, others.foldl larger first) := by
  obtain ⟨first, others, rows⟩ := List.exists_cons_of_ne_nil data.nonempty
  refine ⟨first.1, others.map Prod.fst, ?_, ?_⟩
  · rw [toList_x, rows, List.map_cons]
  · rw [range, rows, List.foldl_map, List.foldl_map]

section Order

variable [FiniteOrderLaws α]

theorem smaller_of_finite {a b : α} (finite : isFinite a = true) (finiteToo : isFinite b = true) :
    smaller a b = if b < a then b else a := by
  simp [smaller, FiniteOrderLaws.number_of_isFinite finite,
    FiniteOrderLaws.number_of_isFinite finiteToo]

theorem larger_of_finite {a b : α} (finite : isFinite a = true) (finiteToo : isFinite b = true) :
    larger a b = if a < b then b else a := by
  simp [larger, FiniteOrderLaws.number_of_isFinite finite,
    FiniteOrderLaws.number_of_isFinite finiteToo]

theorem chooses_smaller : Chooses (smaller : α → α → α) (· ≤ ·) where
  either a b := by
    unfold smaller
    split_ifs <;> simp
  refl := FiniteOrderLaws.le_refl
  trans := FiniteOrderLaws.le_trans
  left {a b} finite finiteToo := by
    rw [smaller_of_finite finite finiteToo]
    split_ifs with below
    · exact FiniteOrderLaws.le_of_lt below
    · exact FiniteOrderLaws.le_refl finite
  right {a b} finite finiteToo := by
    rw [smaller_of_finite finite finiteToo]
    split_ifs with below
    · exact FiniteOrderLaws.le_refl finiteToo
    · exact FiniteOrderLaws.le_of_not_lt finiteToo finite below

theorem chooses_larger : Chooses (larger : α → α → α) fun a b => b ≤ a where
  either a b := by
    unfold larger
    split_ifs <;> simp
  refl := FiniteOrderLaws.le_refl
  trans below above := FiniteOrderLaws.le_trans above below
  left {a b} finite finiteToo := by
    rw [larger_of_finite finite finiteToo]
    split_ifs with below
    · exact FiniteOrderLaws.le_of_lt below
    · exact FiniteOrderLaws.le_refl finite
  right {a b} finite finiteToo := by
    rw [larger_of_finite finite finiteToo]
    split_ifs with below
    · exact FiniteOrderLaws.le_refl finiteToo
    · exact FiniteOrderLaws.le_of_not_lt finite finiteToo below

theorem range_spans (data : Dataset α) :
    data.range.1 ∈ data.x.toList ∧ data.range.2 ∈ data.x.toList ∧
      ∀ sample ∈ data.x.toList, data.range.1 ≤ sample ∧ sample ≤ data.range.2 := by
  obtain ⟨first, others, samples, range⟩ := data.range_eq
  have finite (sample : α) (member : sample ∈ first :: others) : isFinite sample = true :=
    data.isFinite_of_mem_x (samples ▸ member)
  obtain ⟨lowest, below⟩ := chooses_smaller.foldl finite
  obtain ⟨highest, above⟩ := chooses_larger.foldl finite
  rw [samples, range]
  exact ⟨lowest, highest, fun sample member => ⟨below sample member, above sample member⟩⟩

theorem range_ordered (data : Dataset α) : data.range.1 ≤ data.range.2 := by
  obtain ⟨-, highest, between⟩ := data.range_spans
  exact (between _ highest).1

end Order

/-! ## Machine numbers -/

theorem between_infinities {a : Float} (finite : isFinite a = true) :
    a < (infinity : Float) ∧ -(infinity : Float) < a := by
  have above : (infinity : Float).toModel.unpack = .infinity .positive := by rfl
  have below : (-(infinity : Float)).toModel.unpack = .infinity .negative := by rfl
  rw [MachineNumber.lt_iff, MachineNumber.lt_iff, above, below]
  rcases MachineNumber.unpack_of_isFinite finite with ⟨sign, found⟩ | ⟨sign, _, _, _, found⟩
  · rw [found]
    cases sign <;> exact ⟨rfl, rfl⟩
  · rw [found]
    cases sign <;> exact ⟨rfl, rfl⟩

/-- The ends of the range may as well start out infinite, the wrong way round: the first row takes
both places. -/
theorem range_eq_foldl (data : Dataset Float) :
    data.range = data.rows.foldl (fun ends row => (smaller ends.1 row.1, larger ends.2 row.1))
      (infinity, -infinity) := by
  have apart (rows : List (Float × Float)) (low high : Float) :
      rows.foldl (fun ends row => (smaller ends.1 row.1, larger ends.2 row.1)) (low, high) =
        (rows.foldl (fun low row => smaller low row.1) low,
          rows.foldl (fun high row => larger high row.1) high) := by
    induction rows generalizing low high with
    | nil => rfl
    | cons row rows ih => exact ih _ _
  obtain ⟨first, others, rows⟩ := List.exists_cons_of_ne_nil data.nonempty
  have finite := (data.finite first (rows ▸ List.mem_cons_self)).1
  have number := FiniteOrderLaws.number_of_isFinite finite
  obtain ⟨above, below⟩ := between_infinities finite
  have low : smaller (infinity : Float) first.1 = first.1 := by
    rw [smaller, number, if_neg (by decide), if_neg (by decide), if_pos above]
  have high : larger (-(infinity : Float)) first.1 = first.1 := by
    rw [larger, number, if_neg (by decide), if_neg (by decide), if_pos below]
  rw [range, rows]
  dsimp only
  rw [List.foldl_cons, low, high, apart]

/-- Columns are accepted unchanged or refused for a reason that is told, raw columns keep exactly the
rows that can be used, and the samples of a dataset have a range. -/
theorem keeps_usable_rows (x y : List Float) :
    ((∃ data, ofColumns x y = .ok data) ↔
      x.length = y.length ∧ x ≠ [] ∧ (∀ a ∈ x, isFinite a = true) ∧ ∀ b ∈ y, isFinite b = true) ∧
    (∀ data, ofColumns x y = .ok data → data.x.toList = x ∧ data.y.toList = y) ∧
    (x.length = y.length → x ≠ [] → ∀ cause, ofColumns x y = .error cause →
      ∃ row, cause = .nonFiniteRow row ∧ row < x.length ∧ ¬ UsableAt x y row ∧
        ∀ earlier < row, UsableAt x y earlier) ∧
    ((∃ data, ofRaw x y = .ok data) ↔ ∃ row, UsableAt x y row) ∧
    (∀ data, ofRaw x y = .ok data → ∃ places : List Nat, places.Pairwise (· < ·) ∧
      (∀ row, row ∈ places ↔ UsableAt x y row) ∧
      data.x.toList.map some = places.map (x[·]?) ∧
      data.y.toList.map some = places.map (y[·]?) ∧
      data.size ≤ max x.length y.length ∧ ofColumns data.x.toList data.y.toList = .ok data) ∧
    (∀ cause, ofRaw x y = .error cause → cause = .noUsableRows) ∧
    ∀ data : Dataset Float, ofRaw data.x.toList data.y.toList = .ok data ∧
      data.range.1 ∈ data.x.toList ∧ data.range.2 ∈ data.x.toList ∧
      (∀ sample ∈ data.x.toList, data.range.1 ≤ sample ∧ sample ≤ data.range.2) ∧
      data.range = data.rows.foldl (fun ends row => (smaller ends.1 row.1, larger ends.2 row.1))
        (infinity, -infinity) := by
  refine ⟨exists_ofColumns_eq_ok_iff, fun data => ofColumns_eq_ok_iff.mp,
    fun equallyLong nonempty cause => ofColumns_eq_error equallyLong nonempty, ?_,
    fun data accepted => ?_, fun cause => ofRaw_eq_error, fun data => ?_⟩
  · rw [exists_usable_iff]
    constructor
    · rintro ⟨data, accepted⟩
      rw [← ofRaw_eq_ok_iff.mp accepted]
      exact data.nonempty
    · exact exists_ofRaw_eq_ok
  · obtain ⟨places, increasing, usable, samples, values⟩ := ofRaw_places accepted
    refine ⟨places, increasing, usable, samples, values, ?_, ofColumns_eq_ok_iff.mpr ⟨rfl, rfl⟩⟩
    have kept : data.rows.length ≤ (x.zip y).length := by
      rw [ofRaw_eq_ok_iff.mp accepted]
      exact List.length_filter_le _ _
    rw [List.length_zip] at kept
    rw [size]
    omega
  · obtain ⟨lowest, highest, between⟩ := data.range_spans
    exact ⟨data.ofRaw_columns, lowest, highest, between, data.range_eq_foldl⟩

end Dataset

end LeastSquares
