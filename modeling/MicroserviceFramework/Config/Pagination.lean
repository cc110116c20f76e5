import MicroserviceFramework.Config.ConfigDAO
import MicroserviceFramework.Library.Pages

/-!
# The pages of the table

The offset of a page is a product of two numbers from the request, of 32 bits like them. Up to
2^31 it is the position of the page's first row; beyond, it is another position, or below zero.
-/

namespace MicroserviceFramework.Config

open Library Platform

namespace ConfigDAO

/-- What a page says of a row. -/
def entry (row : ConfigRow) : CConfig where
  serviceName := row.service_name
  serviceIp := row.service_ip
  servicePort := row.service_port

/-- All rows, in descending order of their ids. -/
def listing (dao : ConfigDAO) : List CConfig := dao.rows.reverse.map entry

/-- The position of the page's first row, over the integers. -/
def first (page pageCount : Int32) : Int := (page.toInt - 1) * pageCount.toInt

/-- The rows whose positions are on the page. -/
def rowsOf (page pageCount : Int32) (dao : ConfigDAO) : List CConfig :=
  window dao.listing (first page pageCount).toNat (page.toInt * pageCount.toInt).toNat

/-- The answer has the rows of the page and no others, whatever is in a table of that size. -/
def Correct (size : Nat) (page pageCount : Int32) : Prop :=
  ∀ (dao : ConfigDAO) (o : Outcome), dao.mysql → o.select → dao.rows.length = size →
    dao.downloadAllConfig o page pageCount = { config := dao.rowsOf page pageCount }

/-- The offset does not wrap around, or neither the page nor the rows that the wrapped offset leads
to are in the table. -/
def PageFits (size : Nat) (page pageCount : Int32) : Prop :=
  first page pageCount < 2 ^ 31 ∨ size ≤ first page pageCount ∧
    ((first page pageCount).bmod (2 ^ 32) < 0 ∨ size ≤ (first page pageCount).bmod (2 ^ 32))

instance (size : Nat) (page pageCount : Int32) : Decidable (PageFits size page pageCount) :=
  inferInstanceAs (Decidable (_ ∨ _))

section

variable {page pageCount : Int32} (page_pos : 1 ≤ page) (count_pos : 1 ≤ pageCount)

include page_pos

theorem toInt_offset : ((page - 1) * pageCount).toInt = (first page pageCount).bmod (2 ^ 32) := by
  have one : (page - 1).toInt = page.toInt - 1 := Int32.toInt_sub_of_le page 1 (by decide) page_pos
  rw [Int32.toInt_mul, one, first]

include count_pos

theorem pos : 1 ≤ page.toInt ∧ 1 ≤ pageCount.toInt :=
  ⟨Int32.le_iff_toInt_le.mp page_pos, Int32.le_iff_toInt_le.mp count_pos⟩

theorem first_nonneg : 0 ≤ first page pageCount := by
  obtain ⟨page, count⟩ := pos page_pos count_pos
  exact Int.mul_nonneg (by omega) (by omega)

/-- The page that is asked for. -/
theorem rowsOf_eq (dao : ConfigDAO) : dao.rowsOf page pageCount =
    (dao.listing.drop (first page pageCount).toNat).take pageCount.toInt.toNat := by
  have nonneg := first_nonneg page_pos count_pos
  have count := (pos page_pos count_pos).2
  have next : page.toInt * pageCount.toInt = first page pageCount + pageCount.toInt := by
    rw [first, Int.sub_mul, Int.one_mul, Int.sub_add_cancel]
  rw [rowsOf, next, Int.toNat_add nonneg (by omega), window_eq]

/-- The page that is answered. -/
theorem downloadAllConfig_eq (dao : ConfigDAO) (o : Outcome) (mysql : dao.mysql) (select : o.select) :
    dao.downloadAllConfig o page pageCount =
      if 0 ≤ (first page pageCount).bmod (2 ^ 32) then
        { config := (dao.listing.drop ((first page pageCount).bmod (2 ^ 32)).toNat).take
            pageCount.toInt.toNat }
      else {} := by
  have valid : ¬(page ≤ 0 ∨ pageCount ≤ 0) := by grind
  have sign : 0 ≤ (page - 1) * pageCount ↔ 0 ≤ (first page pageCount).bmod (2 ^ 32) := by
    rw [Int32.le_iff_toInt_le, toInt_offset page_pos]
    rfl
  rw [downloadAllConfig, mysql, Bool.not_true, if_neg Bool.false_ne_true, if_neg valid]
  dsimp only
  by_cases nonneg : 0 ≤ (first page pageCount).bmod (2 ^ 32)
  · rw [if_pos ⟨select, sign.mpr nonneg⟩, if_pos nonneg, toInt_offset page_pos, listing,
      List.map_take, List.map_drop]
    rfl
  · rw [if_neg (fun both => nonneg (sign.mp both.2)), if_neg nonneg]

theorem Correct.of_fits {size : Nat} (fits : PageFits size page pageCount) :
    Correct size page pageCount := by
  intro dao o mysql select length
  have nonneg := first_nonneg page_pos count_pos
  have rows : dao.listing.length = size := by simp [listing, length]
  rw [downloadAllConfig_eq page_pos count_pos dao o mysql select, rowsOf_eq page_pos count_pos]
  rcases fits with small | ⟨past, wrapped⟩
  · have same : (first page pageCount).bmod (2 ^ 32) = first page pageCount := by
      rw [Int.bmod_eq_of_le] <;> omega
    rw [same, if_pos nonneg]
  · have empty : dao.listing.drop (first page pageCount).toNat = [] := by
      apply List.drop_of_length_le
      omega
    rw [empty, List.take_nil]
    split
    next sign =>
      rw [List.drop_of_length_le (by omega), List.take_nil]
    · rfl

end

/-! ## Tables whose rows are all different -/

/-- A row whose name has a length of its own. -/
def numbered (i : Nat) : ConfigRow where
  service_name := String.ofList (List.replicate i 'a')
  service_port := 80
  service_ip := ""
  private_pb := []
  proto := []

theorem numbered_inj {i j : Nat} (same : entry (numbered i) = entry (numbered j)) : i = j := by
  have name := congrArg (fun conf => conf.serviceName.toList.length) same
  simpa [entry, numbered] using name

/-- A table whose row at each position is the one of that number. -/
def numberedTable (size : Nat) : ConfigDAO :=
  { rows := ((List.range size).map numbered).reverse }

theorem listing_numberedTable (size i : Nat) : (numberedTable size).listing[i]? =
    if i < size then some (entry (numbered i)) else none := by
  simp only [listing, numberedTable, List.reverse_reverse, List.getElem?_map]
  split
  next lt => simp [lt]
  next ge => simp [Nat.le_of_not_lt ge]

theorem head?_page (l : List CConfig) (i : Nat) {n : Nat} (pos : 0 < n) :
    ((l.drop i).take n).head? = l[i]? := by
  rw [List.head?_take, if_neg (Nat.ne_of_gt pos), List.head?_drop]

section

variable {page pageCount : Int32} (page_pos : 1 ≤ page) (count_pos : 1 ≤ pageCount)

include page_pos count_pos

theorem Correct.fits {size : Nat} (correct : Correct size page pageCount) :
    PageFits size page pageCount := by
  have nonneg := first_nonneg page_pos count_pos
  have count := (pos page_pos count_pos).2
  have answer := correct (numberedTable size) {} rfl rfl (by simp [numberedTable])
  rw [downloadAllConfig_eq page_pos count_pos _ _ rfl rfl, rowsOf_eq page_pos count_pos] at answer
  by_contra beyond
  obtain ⟨wraps, inside⟩ := not_or.mp beyond
  have lt : (first page pageCount).bmod (2 ^ 32) < 2 ^ 31 := Int.bmod_lt (by decide)
  -- the first row of the answer against the first row of the page
  have heads := congrArg (fun list => list.config.head?) answer
  dsimp only at heads
  rw [head?_page _ _ (by omega), listing_numberedTable] at heads
  split at heads
  next sign =>
    rw [head?_page _ _ (by omega), listing_numberedTable] at heads
    have other : ((first page pageCount).bmod (2 ^ 32)).toNat ≠ (first page pageCount).toNat := by
      omega
    have there : ((first page pageCount).bmod (2 ^ 32)).toNat < size := by omega
    rw [if_pos there] at heads
    split at heads
    · exact other (numbered_inj (Option.some.inj heads))
    · cases heads
  next sign =>
    have there : (first page pageCount).toNat < size := by omega
    rw [if_pos there] at heads
    cases heads

/-- A page has its rows, in every table of that size, exactly if its offset does not wrap around,
or leads past the end like the page itself. -/
theorem pages_correct_iff (size : Nat) :
    Correct size page pageCount ↔ PageFits size page pageCount :=
  ⟨fun correct => correct.fits page_pos count_pos, fun fits => .of_fits page_pos count_pos fits⟩

end

/-- The second page of three rows. -/
theorem pages_correct_second : Correct 3 2 2 := by
  have two_pos : (1 : Int32) ≤ 2 := by decide
  exact (pages_correct_iff two_pos two_pos 3).mpr (by decide)

/-- The offset of page 65537 with 65536 rows a page is 2^32, so the only row is on that page too. -/
theorem pages_wrap :
    (numberedTable 1).downloadAllConfig {} 65537 65536 = { config := [entry (numbered 0)] } ∧
      (numberedTable 1).rowsOf 65537 65536 = [] ∧ ¬Correct 1 65537 65536 := by
  have answer : (numberedTable 1).downloadAllConfig {} 65537 65536 =
      { config := [entry (numbered 0)] } := by decide +kernel
  have page : (numberedTable 1).rowsOf 65537 65536 = [] := by decide +kernel
  refine ⟨answer, page, fun correct => ?_⟩
  have same := correct (numberedTable 1) {} rfl rfl rfl
  rw [answer, page] at same
  exact absurd same (by decide)

/-- The pages from the first on list every row once, in their order, when there are enough of them
and the offset of none wraps around. -/
theorem pages_partition {pageCount : Int32} (count_pos : 1 ≤ pageCount) (dao : ConfigDAO)
    (o : Outcome) (mysql : dao.mysql) (select : o.select) {m : Nat} (bound : m < 2 ^ 31)
    (enough : dao.rows.length ≤ m * pageCount.toInt.toNat)
    (fits : ∀ k < m, PageFits dao.rows.length (Int32.ofNat (k + 1)) pageCount) :
    (List.range m).flatMap (fun k =>
      (dao.downloadAllConfig o (Int32.ofNat (k + 1)) pageCount).config) = dao.listing := by
  have rows : dao.listing.length = dao.rows.length := by simp [listing]
  have count : 1 ≤ pageCount.toInt := Int32.le_iff_toInt_le.mp count_pos
  rw [← flatMap_window_eq dao.listing (rows ▸ enough)]
  apply List.flatMap_congr
  intro k mem
  have lt := List.mem_range.mp mem
  have number : (Int32.ofNat (k + 1)).toInt = k + 1 := Int32.toInt_ofNat_of_lt (by omega)
  have page_pos : 1 ≤ Int32.ofNat (k + 1) := by
    rw [Int32.le_iff_toInt_le, number]
    exact Int.le_add_of_nonneg_left (Int.natCast_nonneg k)
  have position : (first (Int32.ofNat (k + 1)) pageCount).toNat = k * pageCount.toInt.toNat := by
    rw [first, number, Int.add_sub_cancel, Int.toNat_mul (Int.natCast_nonneg k) (by omega),
      Int.toNat_natCast]
  rw [Correct.of_fits page_pos count_pos (fits k lt) dao o mysql select rfl]
  dsimp only
  rw [rowsOf_eq page_pos count_pos, window_eq, position]

end ConfigDAO

end MicroserviceFramework.Config
