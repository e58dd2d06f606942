import Mathlib.Data.Bool.AllAny
import Mathlib.Data.List.DropRight
import Mathlib.Data.List.Infix

/-! The look-up of pins in `pins.ini`: `pins_pin`, and the pins of a socket in `T_reset.sh`. -/
namespace YoctoLayers.TpsHwdata

/-- A line of a file, without its newline. -/
abbrev Line := List Char

/-- A name that `grep` takes literally, and not for an option. -/
structure PinName where
  chars : List Char
  literal : ∀ c ∈ chars, c.isAlphanum ∨ c = '-' ∨ c = '_'
  noOption : chars.head? ≠ some '-'

/-- `\s` -/
def isBlank (c : Char) : Bool :=
  c = ' ' || c = '\t' || c = '\r' || c = Char.ofNat 11 || c = Char.ofNat 12

/-- `grep word` for a literal word. -/
def grep (word : List Char) (l : Line) : Bool := word <:+: l

/-- `grep -i word` for a literal word. -/
def grepI (word : List Char) (l : Line) : Bool :=
  word.map Char.toLower <:+: l.map Char.toLower

/-- `grep "c.*="` -/
def grepKey (c : Char) (l : Line) : Bool := '=' ∈ (l.dropWhile (· ≠ c)).drop 1

/-- What follows the last `=`. -/
def afterLast (l : Line) : Line := (l.reverse.takeWhile (· ≠ '=')).reverse

/-- `sed -e 's/.*=\s*//'` -/
def sedValue (l : Line) : Line := if '=' ∈ l then (afterLast l).dropWhile isBlank else l

/-- The lines that `pins_pin` takes the value of. -/
def pinsPinLine (name : List Char) (l : Line) : Bool :=
  grepI name l && !grep "GPIO".toList l && grep "=".toList l

/-- What `pins_pin` prints. -/
def pinsPin (name : List Char) (pins : List Line) : List Line :=
  (pins.filter (pinsPinLine name)).map sedValue

/-- `ttmp` of `T_reset.sh`. -/
def ttmp (sock : List Char) (pins : List Line) : List Line :=
  pins.filter fun l => grepI sock l && !grep "GPIO".toList l

/-- The pin `c` of a socket in `T_reset.sh`, for `c` from `A` to `D`. -/
def sockPin (sock : List Char) (c : Char) (pins : List Line) : List Line :=
  ((ttmp sock pins).filter (grepKey c)).map sedValue

/-- The section that a line begins. -/
def iniSection (l : Line) : Option (List Char) :=
  match l.dropWhile isBlank with
  | '[' :: rest => some (rest.takeWhile (· ≠ ']'))
  | _ => none

/-- The key and the value of a line `NAME = VALUE`. -/
def iniEntry (l : Line) : Option (List Char × List Char) :=
  let l := l.dropWhile isBlank
  if l.head? = some '#' ∨ l.head? = some ';' ∨ l.head? = some '[' ∨ '=' ∉ l then none
  else
    some ((l.takeWhile (· ≠ '=')).rdropWhile isBlank,
      ((l.dropWhile (· ≠ '=')).drop 1).dropWhile isBlank)

/-- The lines in which a name is a key, outside the sections `[GPIO-...]`. -/
def keyLines (name : List Char) : Bool → List Line → List Line
  | _, [] => []
  | mapping, l :: ls =>
    match iniSection l with
    | some sec => keyLines name ("GPIO-".toList.isPrefixOf sec) ls
    | none =>
      if !mapping && decide ((iniEntry l).map Prod.fst = some name) then
        l :: keyLines name mapping ls
      else keyLines name mapping ls

/-- The lines that the look-up of pin `c` of a socket takes. -/
def sockPinLine (sock : List Char) (c : Char) (l : Line) : Bool :=
  grepI sock l && !grep "GPIO".toList l && grepKey c l

/-- A look-up takes the line of a key and no other, and prints its value. -/
def Exact (taken printed : List Line) (key : List Char) (l : Line) : Prop :=
  taken = [l] ∧ ∃ value, iniEntry l = some (key, value) ∧ printed = [value]

/-- No other line is taken, and this one has neither `GPIO` in it nor a second `=`. -/
structure Alone (takes : Line → Bool) (pins : List Line) (l : Line) : Prop where
  others : ∀ l' ∈ pins.erase l, takes l' = false
  gpio : grep "GPIO".toList l = false
  value : ∀ key value, iniEntry l = some (key, value) → '=' ∉ value

/-- One element is left by a filter. -/
theorem filter_eq_singleton_iff {α : Type} [BEq α] [LawfulBEq α] {p : α → Bool}
    {xs : List α} {x : α}
    (hx : x ∈ xs) : xs.filter p = [x] ↔ p x = true ∧ ∀ y ∈ xs.erase x, p y = false := by
  have hperm : (xs.filter p).Perm ((x :: xs.erase x).filter p) := (List.perm_cons_erase hx).filter p
  constructor
  · intro h
    have hpx : p x = true := by
      have hmem : x ∈ xs.filter p := by rw [h]; exact List.mem_singleton_self x
      exact (List.mem_filter.mp hmem).2
    refine ⟨hpx, fun y hy => ?_⟩
    rw [h, List.filter_cons_of_pos hpx] at hperm
    have hnil : (xs.erase x).filter p = [] :=
      List.length_eq_zero_iff.mp (Nat.succ.inj hperm.length_eq.symm)
    exact Bool.eq_false_iff.mpr fun hpy =>
      List.not_mem_nil (hnil ▸ List.mem_filter.mpr ⟨hy, hpy⟩)
  · rintro ⟨hpx, hrest⟩
    have hnil : (xs.erase x).filter p = [] :=
      List.filter_eq_nil_iff.mpr fun y hy => by simp [hrest y hy]
    rw [List.filter_cons_of_pos hpx, hnil] at hperm
    exact List.perm_singleton.mp hperm

theorem mem_of_mem_keyLines {name : List Char} {mapping : Bool} {pins : List Line} {l : Line}
    (h : l ∈ keyLines name mapping pins) :
    l ∈ pins ∧ ∃ value, iniEntry l = some (name, value) := by
  induction pins generalizing mapping with
  | nil => cases h
  | cons l' ls ih =>
    rw [keyLines] at h
    split at h
    · obtain ⟨hmem, hentry⟩ := ih h
      exact ⟨List.mem_cons_of_mem _ hmem, hentry⟩
    · split_ifs at h with hkey
      · rcases List.mem_cons.mp h with rfl | h
        · refine ⟨List.mem_cons_self, ?_⟩
          rw [Bool.and_eq_true, decide_eq_true_eq, Option.map_eq_some_iff] at hkey
          obtain ⟨-, ⟨key, value⟩, hentry, rfl⟩ := hkey
          exact ⟨value, hentry⟩
        · obtain ⟨hmem, hentry⟩ := ih h
          exact ⟨List.mem_cons_of_mem _ hmem, hentry⟩
      · obtain ⟨hmem, hentry⟩ := ih h
        exact ⟨List.mem_cons_of_mem _ hmem, hentry⟩

/-- A line with an entry, split at its first `=`. -/
theorem iniEntry_split {l : Line} {key value : List Char} (h : iniEntry l = some (key, value)) :
    ∃ before after, l = before ++ '=' :: after ∧ key <:+: before ∧
      value = after.dropWhile isBlank := by
  unfold iniEntry at h
  dsimp only at h
  split_ifs at h with hnone
  obtain ⟨rfl, rfl⟩ := Prod.mk.inj (Option.some.inj h)
  have hmem : '=' ∈ l.dropWhile isBlank := by
    by_contra hno
    exact hnone (Or.inr (Or.inr (Or.inr hno)))
  obtain ⟨name, after, hline, hname⟩ := List.eq_append_cons_of_mem hmem
  have hall : ∀ c ∈ name, decide (c ≠ '=') = true := fun c hc =>
    decide_eq_true fun heq => hname (heq ▸ hc)
  have htake : (l.dropWhile isBlank).takeWhile (· ≠ '=') = name := by
    rw [hline, List.takeWhile_append_of_pos hall, List.takeWhile_cons_of_neg (by simp),
      List.append_nil]
  have hdrop : (l.dropWhile isBlank).dropWhile (· ≠ '=') = '=' :: after := by
    rw [hline, List.dropWhile_append_of_pos hall, List.dropWhile_cons_of_neg (by simp)]
  refine ⟨l.takeWhile isBlank ++ name, after, ?_, ?_, ?_⟩
  · rw [List.append_assoc, ← hline, List.takeWhile_append_dropWhile]
  · rw [htake]
    exact (List.rdropWhile_prefix _ _).isInfix.trans (List.suffix_append _ _).isInfix
  · rw [hdrop]
    rfl

theorem afterLast_of_notMem {before after : Line} (h : '=' ∉ after) :
    afterLast (before ++ '=' :: after) = after := by
  have hall : ∀ c ∈ after.reverse, decide (c ≠ '=') = true := fun c hc =>
    decide_eq_true fun heq => h (heq ▸ List.mem_reverse.mp hc)
  unfold afterLast
  rw [List.reverse_append, List.reverse_cons, List.append_assoc,
    List.takeWhile_append_of_pos hall]
  simp

theorem notMem_afterLast (l : Line) : '=' ∉ afterLast l := by
  unfold afterLast
  intro h
  have := List.mem_takeWhile_imp (List.mem_reverse.mp h)
  simp at this

/-- What `sed` prints of a line is its value, unless that has another `=`. -/
theorem sedValue_eq_iff {l : Line} {key value : List Char} (h : iniEntry l = some (key, value)) :
    sedValue l = value ↔ '=' ∉ value := by
  obtain ⟨before, after, rfl, -, rfl⟩ := iniEntry_split h
  have hmem : '=' ∈ before ++ '=' :: after :=
    List.mem_append_right _ List.mem_cons_self
  rw [sedValue, if_pos hmem]
  constructor
  · intro heq hin
    rw [← heq] at hin
    exact notMem_afterLast _ ((List.dropWhile_sublist _).subset hin)
  · intro hno
    have hafter : '=' ∉ after := by
      rw [← List.takeWhile_append_dropWhile (p := isBlank) (l := after), List.mem_append]
      rintro (hblank | hin)
      · exact absurd (List.mem_takeWhile_imp hblank) (by decide)
      · exact hno hin
    rw [afterLast_of_notMem hafter]

theorem grepKey_of_mem {c : Char} {before after : Line} (hc : c ∈ before) :
    grepKey c (before ++ '=' :: after) = true := by
  unfold grepKey
  induction before with
  | nil => cases hc
  | cons d before ih =>
    by_cases hd : d = c
    · simp [hd]
    · rw [List.cons_append, List.dropWhile_cons_of_pos (by simpa using hd)]
      exact ih ((List.mem_cons.mp hc).resolve_left fun h => hd h.symm)

/-- A look-up that takes the line of a key, unless `GPIO` is in it. -/
theorem exact_iff {takes : Line → Bool} {pins : List Line} {key : List Char} {l : Line}
    (hkey : keyLines key false pins = [l])
    (htakes : takes l = !grep "GPIO".toList l) :
    Exact (pins.filter takes) ((pins.filter takes).map sedValue) key l ↔ Alone takes pins l := by
  obtain ⟨hmem, value, hentry⟩ := mem_of_mem_keyLines (hkey ▸ List.mem_singleton_self l)
  have hone := filter_eq_singleton_iff (p := takes) hmem
  constructor
  · rintro ⟨htaken, value', hentry', hprinted⟩
    cases hentry.symm.trans hentry'
    obtain ⟨hl, hothers⟩ := hone.mp htaken
    rw [htaken] at hprinted
    refine ⟨hothers, by simpa [htakes] using hl, fun key' value' h => ?_⟩
    cases hentry.symm.trans h
    exact (sedValue_eq_iff hentry).mp (List.singleton_inj.mp hprinted)
  · intro h
    have htaken := hone.mpr ⟨by rw [htakes, h.gpio]; rfl, h.others⟩
    refine ⟨htaken, value, hentry, ?_⟩
    rw [htaken, List.map_singleton, (sedValue_eq_iff hentry).mpr (h.value _ _ hentry)]

theorem grepI_of_infix {word : List Char} {l : Line} (h : word <:+: l) : grepI word l = true :=
  decide_eq_true (h.map Char.toLower)

theorem pinsPinLine_of_entry {name value : List Char} {l : Line}
    (h : iniEntry l = some (name, value)) :
    pinsPinLine name l = !grep "GPIO".toList l := by
  obtain ⟨before, after, rfl, hname, -⟩ := iniEntry_split h
  have heq : grep "=".toList (before ++ '=' :: after) = true :=
    decide_eq_true ⟨before, after, by simp⟩
  rw [pinsPinLine, grepI_of_infix (hname.trans (List.prefix_append _ _).isInfix), heq,
    Bool.true_and, Bool.and_true]

theorem sockPinLine_of_entry {sock value : List Char} {c : Char} {l : Line}
    (h : iniEntry l = some (sock ++ [c], value)) :
    sockPinLine sock c l = !grep "GPIO".toList l := by
  obtain ⟨before, after, rfl, hname, -⟩ := iniEntry_split h
  have hsock : sock <:+: before ++ '=' :: after :=
    (List.prefix_append sock [c]).isInfix.trans
      (hname.trans (List.prefix_append _ _).isInfix)
  have hc : c ∈ before := hname.subset (by simp)
  rw [sockPinLine, grepI_of_infix hsock, grepKey_of_mem hc, Bool.true_and, Bool.and_true]

theorem ttmp_filter (sock : List Char) (c : Char) (pins : List Line) :
    (ttmp sock pins).filter (grepKey c) = pins.filter (sockPinLine sock c) := by
  rw [ttmp, List.filter_filter]
  congr 1
  funext l
  exact Bool.and_comm _ _

/-- `pins_pin` takes the line of a pin alone and prints its value, and so do the look-ups of
`T_reset.sh` for the four pins of a socket, if and only if no other line is taken and the line
itself has neither `GPIO` nor a second `=`. -/
theorem pins_exact_iff (pins : List Line) :
    (∀ (name : PinName) l, keyLines name.chars false pins = [l] →
      (Exact (pins.filter (pinsPinLine name.chars)) (pinsPin name.chars pins) name.chars l ↔
        Alone (pinsPinLine name.chars) pins l)) ∧
    ∀ (sock : PinName) (line : Char → Line),
      (∀ c ∈ ['A', 'B', 'C', 'D'], keyLines (sock.chars ++ [c]) false pins = [line c]) →
      ((∀ c ∈ ['A', 'B', 'C', 'D'], Exact ((ttmp sock.chars pins).filter (grepKey c))
          (sockPin sock.chars c pins) (sock.chars ++ [c]) (line c)) ↔
        ∀ c ∈ ['A', 'B', 'C', 'D'], Alone (sockPinLine sock.chars c) pins (line c)) := by
  constructor
  · intro name l hkey
    obtain ⟨-, value, hentry⟩ := mem_of_mem_keyLines (hkey ▸ List.mem_singleton_self l)
    exact exact_iff hkey (pinsPinLine_of_entry hentry)
  · intro sock line hkeys
    refine forall_congr' fun c => forall_congr' fun hc => ?_
    obtain ⟨-, value, hentry⟩ :=
      mem_of_mem_keyLines (hkeys c hc ▸ List.mem_singleton_self (line c))
    rw [sockPin, ttmp_filter]
    exact exact_iff (hkeys c hc) (sockPinLine_of_entry hentry)

/-- Socket 3 and the Bluetooth pin, with the mapping of one pin. -/
def pinsS3 : List Line :=
  ["[CPU]", "S3A = 12", "S3B = 13", "S3C = 14", "S3D = 15", "BTEN = 82", "[GPIO-TPS3]",
    "S3A = GPIO32"].map String.toList

def lineS3 (c : Char) : Line :=
  "S3".toList ++ c :: " = ".toList ++
    (if c = 'A' then "12" else if c = 'B' then "13" else if c = 'C' then "14" else "15").toList

theorem alone_pinsS3 {takes : Line → Bool} {l : Line} (key value : List Char)
    (hothers : ∀ l' ∈ pinsS3.erase l, takes l' = false)
    (h : grep "GPIO".toList l = false ∧ iniEntry l = some (key, value) ∧ '=' ∉ value) :
    Alone takes pinsS3 l := by
  refine ⟨hothers, h.1, fun key' value' hentry => ?_⟩
  cases h.2.1.symm.trans hentry
  exact h.2.2

/-- A property of the four pins of a socket, pin by pin. -/
theorem forall_sockPins {P : Char → Prop} (hA : P 'A') (hB : P 'B') (hC : P 'C') (hD : P 'D') :
    ∀ c ∈ ['A', 'B', 'C', 'D'], P c := by
  simp [hA, hB, hC, hD]

def nameBten : PinName where
  chars := "BTEN".toList
  literal := List.all_iff_forall_prop.mp (by decide)
  noOption := by decide

def nameS3 : PinName where
  chars := "S3".toList
  literal := List.all_iff_forall_prop.mp (by decide)
  noOption := by decide

theorem pins_exact_iff_s3 :
    Exact (pinsS3.filter (pinsPinLine "BTEN".toList)) (pinsPin "BTEN".toList pinsS3)
        "BTEN".toList "BTEN = 82".toList ∧
      ∀ c ∈ ['A', 'B', 'C', 'D'], Exact ((ttmp "S3".toList pinsS3).filter (grepKey c))
        (sockPin "S3".toList c pinsS3) ("S3".toList ++ [c]) (lineS3 c) := by
  constructor
  · exact ((pins_exact_iff pinsS3).1 nameBten _ (by decide)).mpr
      (alone_pinsS3 "BTEN".toList "82".toList (by decide) (by decide))
  · refine ((pins_exact_iff pinsS3).2 nameS3 lineS3 ?_).mpr ?_
    · apply forall_sockPins <;> decide
    · apply forall_sockPins
      · exact alone_pinsS3 "S3A".toList "12".toList (by decide) (by decide)
      · exact alone_pinsS3 "S3B".toList "13".toList (by decide) (by decide)
      · exact alone_pinsS3 "S3C".toList "14".toList (by decide) (by decide)
      · exact alone_pinsS3 "S3D".toList "15".toList (by decide) (by decide)

/-- `MD` is in `WIFI-CMD`, and `S1` in `S11A`. -/
theorem pins_inexact :
    let pins := ["[CPU]", "S1A = 8", "S1B = 9", "S1C = 10", "S1D = 11", "S11A = 28", "MD = 3",
      "WIFI-CMD = 47"].map String.toList
    keyLines "MD".toList false pins = ["MD = 3".toList] ∧
      pinsPin "MD".toList pins = ["3".toList, "47".toList] ∧
      keyLines "S1A".toList false pins = ["S1A = 8".toList] ∧
      sockPin "S1".toList 'A' pins = ["8".toList, "28".toList] := by
  decide

end YoctoLayers.TpsHwdata
