import KeepPeek.Lib.Bytes
import Mathlib.Data.List.Infix

/-! The two framings of NAL units: start codes between the units, and a 32-bit
length before each unit.

A byte string is read by its start codes in one way only: what stands before the
first code, and then a code and a segment at a time. The conversion to lengths
keeps the segments that are not empty, and reading the lengths back gives them
again as long as 32 bits hold the lengths. -/
namespace KeepPeek.Storage.Nal

open Lib

variable {data nalu rest before bytes : List UInt8} {units : List AnnexbUnit}
  {nalus : List (List UInt8)}

def startCodeLength : List UInt8 → Option Nat
  | 0 :: 0 :: 0 :: 1 :: _ => some 4
  | 0 :: 0 :: 1 :: _ => some 3
  | _ => none

/-- The test of the inner loop. -/
def atStartCode : List UInt8 → Bool
  | 0 :: 0 :: 1 :: _ => true
  | 0 :: 0 :: 0 :: 1 :: _ => true
  | _ => false

def naluLength : List UInt8 → Nat
  | [] => 0
  | byte :: rest => if atStartCode (byte :: rest) then 0 else naluLength rest + 1

def putNalu (nalu : List UInt8) : List UInt8 :=
  if nalu.isEmpty then [] else be32 nalu.length ++ nalu

def annexbToAvcc (annexb : List UInt8) : List UInt8 :=
  match annexb with
  | [] => []
  | byte :: rest =>
    match startCodeLength (byte :: rest) with
    | none => annexbToAvcc rest
    | some codeLength =>
      let body := rest.drop (codeLength - 1)
      putNalu (body.take (naluLength body)) ++ annexbToAvcc (body.drop (naluLength body))
termination_by annexb.length
decreasing_by
  · simp
  · simp only [List.length_drop, List.length_cons]
    omega

/-- One turn of the loop over units behind their lengths: the unit and the bytes
after it, or the bytes the loop stops at. -/
def readNalu : List UInt8 → Except (List UInt8) (List UInt8 × List UInt8)
  | a :: b :: c :: d :: rest =>
    if ofBe32 a b c d = 0 ∨ ofBe32 a b c d > rest.length then
      .error rest
    else
      .ok (rest.take (ofBe32 a b c d), rest.drop (ofBe32 a b c d))
  | short => .error short

theorem readNalu_lt (read : readNalu data = .ok (nalu, rest)) : rest.length < data.length := by
  unfold readNalu at read
  split at read
  · split at read
    · cases read
    · cases read
      simp only [List.length_drop, List.length_cons]
      omega
  · cases read

/-- The units visited, in order, and the bytes the loop stops at. Every turn takes four
bytes at least. -/
def visitNalus : Nat → List UInt8 → List (List UInt8) × List UInt8
  | 0, data => ([], data)
  | fuel + 1, data =>
    match readNalu data with
    | .error left => ([], left)
    | .ok (nalu, rest) => (nalu :: (visitNalus fuel rest).1, (visitNalus fuel rest).2)

def forEachAvccNalu (data : List UInt8) : List (List UInt8) × List UInt8 :=
  visitNalus (data.length + 1) data

def avccToAnnexb (avcc : List UInt8) : List UInt8 :=
  (forEachAvccNalu avcc).1.flatMap fun nalu => [0, 0, 0, 1] ++ nalu

def lengthPrefixed (nalus : List (List UInt8)) : List UInt8 :=
  nalus.flatMap fun nalu => be32 nalu.length ++ nalu

/-! ### Start codes and segments -/

structure AnnexbUnit where
  long : Bool
  segment : List UInt8
deriving DecidableEq, Repr

def AnnexbUnit.code (unit : AnnexbUnit) : List UInt8 :=
  if unit.long then [0, 0, 0, 1] else [0, 0, 1]

def annexbBytes (units : List AnnexbUnit) : List UInt8 :=
  units.flatMap fun unit => unit.code ++ unit.segment

def StartCodeFree (bytes : List UInt8) : Prop :=
  ¬ [0, 0, 1] <:+: bytes

instance : DecidablePred StartCodeFree := fun bytes =>
  inferInstanceAs (Decidable (¬ [0, 0, 1] <:+: bytes))

/-- The codes are all the start codes there are, each taken with the zero before
it where there is one. -/
def Delimited : List UInt8 → List AnnexbUnit → Prop
  | before, [] => StartCodeFree before
  | before, unit :: units =>
    StartCodeFree before ∧ (unit.long = false → before.getLast? ≠ some 0) ∧
      Delimited unit.segment units

theorem Delimited.free (delimited : Delimited before units) : StartCodeFree before := by
  cases units with
  | nil => exact delimited
  | cons unit units => exact delimited.1

theorem atStartCode_iff :
    atStartCode bytes = true ↔
      (∃ rest, bytes = 0 :: 0 :: 1 :: rest) ∨ ∃ rest, bytes = 0 :: 0 :: 0 :: 1 :: rest := by
  constructor
  · intro code
    unfold atStartCode at code
    split at code
    · exact .inl ⟨_, rfl⟩
    · exact .inr ⟨_, rfl⟩
    · cases code
  · rintro (⟨rest, rfl⟩ | ⟨rest, rfl⟩) <;> rfl

theorem startCodeLength_eq_none (free : atStartCode bytes = false) :
    startCodeLength bytes = none := by
  unfold startCodeLength
  split
  · cases free
  · cases free
  · rfl

theorem StartCodeFree.tail {byte : UInt8} (free : StartCodeFree (byte :: bytes)) :
    StartCodeFree bytes :=
  fun code => free (code.trans (List.suffix_cons byte bytes).isInfix)

theorem not_atStartCode {byte : UInt8} (delimited : Delimited (byte :: rest) units) :
    atStartCode (byte :: rest ++ annexbBytes units) = false := by
  rw [Bool.eq_false_iff]
  intro code
  have free := delimited.free
  -- A code that begins here ends inside the segment, or needs a byte of the next code
  -- that the next code does not have there.
  rcases atStartCode_iff.mp code with ⟨after, short⟩ | ⟨after, long⟩
  · rcases rest with _ | ⟨c, _ | ⟨d, rest⟩⟩
    · rcases units with _ | ⟨⟨_ | _, segment⟩, units⟩ <;>
        simp [annexbBytes, AnnexbUnit.code] at short
    · rcases units with _ | ⟨⟨_ | _, segment⟩, units⟩ <;>
        simp [annexbBytes, AnnexbUnit.code] at short
    · simp only [List.cons_append, List.cons.injEq] at short
      obtain ⟨rfl, rfl, rfl, -⟩ := short
      exact free ⟨[], rest, rfl⟩
  · rcases rest with _ | ⟨c, _ | ⟨d, _ | ⟨e, rest⟩⟩⟩
    · rcases units with _ | ⟨⟨_ | _, segment⟩, units⟩
      · cases long
      · obtain ⟨rfl, -⟩ := List.cons.inj long
        exact delimited.2.1 rfl rfl
      · simp [annexbBytes, AnnexbUnit.code] at long
    · rcases units with _ | ⟨⟨_ | _, segment⟩, units⟩ <;>
        simp [annexbBytes, AnnexbUnit.code] at long
    · rcases units with _ | ⟨⟨_ | _, segment⟩, units⟩ <;>
        simp [annexbBytes, AnnexbUnit.code] at long
    · simp only [List.cons_append, List.cons.injEq] at long
      obtain ⟨rfl, rfl, rfl, rfl, -⟩ := long
      exact free ⟨[0], rest, rfl⟩

theorem Delimited.tail {byte : UInt8} (delimited : Delimited (byte :: rest) units) :
    Delimited rest units := by
  cases units with
  | nil => exact StartCodeFree.tail delimited
  | cons unit units =>
    obtain ⟨free, last, delimited⟩ := delimited
    refine ⟨free.tail, fun short => ?_, delimited⟩
    cases rest with
    | nil => simp
    | cons next rest => exact last short

theorem naluLength_eq {segment : List UInt8} (delimited : Delimited segment units) :
    naluLength (segment ++ annexbBytes units) = segment.length := by
  induction segment with
  | nil =>
    cases units with
    | nil => rfl
    | cons unit units =>
      obtain ⟨_ | _, segment⟩ := unit <;> rfl
  | cons byte rest ih =>
    have none := not_atStartCode delimited
    rw [List.cons_append] at none ⊢
    rw [naluLength, none, if_neg (by decide), ih delimited.tail, List.length_cons]

theorem annexbToAvcc_skip (delimited : Delimited before units) :
    annexbToAvcc (before ++ annexbBytes units) = annexbToAvcc (annexbBytes units) := by
  induction before with
  | nil => rfl
  | cons byte rest ih =>
    have none := startCodeLength_eq_none (not_atStartCode delimited)
    rw [List.cons_append] at none ⊢
    rw [annexbToAvcc, none]
    exact ih delimited.tail

theorem annexbToAvcc_unit {unit : AnnexbUnit} (delimited : Delimited unit.segment units) :
    annexbToAvcc (annexbBytes (unit :: units)) =
      putNalu unit.segment ++ annexbToAvcc (annexbBytes units) := by
  have length := naluLength_eq delimited
  have turn (codeLength : Nat) (byte : UInt8) (rest : List UInt8)
      (code : startCodeLength (byte :: rest) = some codeLength)
      (body : rest.drop (codeLength - 1) = unit.segment ++ annexbBytes units) :
      annexbToAvcc (byte :: rest) = putNalu unit.segment ++ annexbToAvcc (annexbBytes units) := by
    rw [annexbToAvcc, code]
    simp only [body, length, List.take_left, List.drop_left]
  have bytes : annexbBytes (unit :: units) = unit.code ++ (unit.segment ++ annexbBytes units) := by
    simp [annexbBytes]
  rw [bytes]
  obtain ⟨_ | _, segment⟩ := unit
  · exact turn 3 _ _ rfl rfl
  · exact turn 4 _ _ rfl rfl

def segments (units : List AnnexbUnit) : List (List UInt8) :=
  (units.map AnnexbUnit.segment).filter (!·.isEmpty)

theorem lengthPrefixed_segments_cons (unit : AnnexbUnit) (units : List AnnexbUnit) :
    lengthPrefixed (segments (unit :: units)) =
      putNalu unit.segment ++ lengthPrefixed (segments units) := by
  obtain ⟨long, _ | ⟨byte, rest⟩⟩ := unit <;> simp [segments, lengthPrefixed, putNalu]

theorem annexbToAvcc_eq (delimited : Delimited before units) :
    annexbToAvcc (before ++ annexbBytes units) = lengthPrefixed (segments units) := by
  rw [annexbToAvcc_skip delimited]
  induction units generalizing before with
  | nil => simp [annexbBytes, annexbToAvcc, segments, lengthPrefixed]
  | cons unit units ih =>
    rw [annexbToAvcc_unit delimited.2.2, ih delimited.2.2, lengthPrefixed_segments_cons]

theorem startCodeFree_nil : StartCodeFree [] := by
  decide

theorem exists_delimited (bytes : List UInt8) :
    ∃ before units, Delimited before units ∧ before ++ annexbBytes units = bytes := by
  induction bytes with
  | nil => exact ⟨[], [], startCodeFree_nil, rfl⟩
  | cons byte bytes ih =>
    obtain ⟨before, units, delimited, rfl⟩ := ih
    by_cases free : StartCodeFree (byte :: before)
    · rcases units with _ | ⟨⟨long, segment⟩, units⟩
      · exact ⟨byte :: before, [], free, rfl⟩
      by_cases boundary : long = false → (byte :: before).getLast? ≠ some 0
      · exact ⟨byte :: before, ⟨long, segment⟩ :: units, ⟨free, boundary, delimited.2.2⟩, rfl⟩
      -- The byte is the zero of a code of four bytes.
      rw [Classical.not_imp, not_not] at boundary
      obtain ⟨rfl, zero⟩ := boundary
      cases before with
      | nil =>
        cases zero
        exact ⟨[], ⟨true, segment⟩ :: units, ⟨startCodeFree_nil, nofun, delimited.2.2⟩, rfl⟩
      | cons next before => exact absurd zero (delimited.2.1 rfl)
    · -- The byte begins a code of three bytes.
      have code : [0, 0, 1] <:+: byte :: before := not_not.mp free
      rcases List.infix_cons_iff.mp code with ⟨segment, begins⟩ | within
      · cases begins
        exact ⟨[], ⟨false, segment⟩ :: units,
          ⟨startCodeFree_nil, fun _ => nofun, delimited.tail.tail⟩, rfl⟩
      · exact absurd within delimited.free

/-! ### Reading the lengths back -/

theorem ofBe32_be32_mod (value : Nat) :
    ofBe32 (UInt8.ofNat (value / 2 ^ 24)) (UInt8.ofNat (value / 2 ^ 16))
      (UInt8.ofNat (value / 2 ^ 8)) (UInt8.ofNat value) = value % 2 ^ 32 := by
  simp only [ofBe32, UInt8.toNat_ofNat']
  omega

theorem readNalu_be32 (length : Nat) (rest : List UInt8) :
    readNalu (be32 length ++ rest) =
      if length % 2 ^ 32 = 0 ∨ length % 2 ^ 32 > rest.length then .error rest
      else .ok (rest.take (length % 2 ^ 32), rest.drop (length % 2 ^ 32)) := by
  have read := ofBe32_be32_mod length
  generalize length % 2 ^ 32 = cut at read ⊢
  simp only [be32, List.cons_append, List.nil_append, readNalu, read]

theorem readNalu_of_lt (held : nalu ≠ []) (fits : nalu.length < 2 ^ 32) :
    readNalu (be32 nalu.length ++ (nalu ++ rest)) = .ok (nalu, rest) := by
  have positive := List.length_pos_iff.mpr held
  rw [readNalu_be32, Nat.mod_eq_of_lt fits, if_neg, List.take_left, List.drop_left]
  rw [List.length_append]
  omega

theorem readNalu_of_le {read left : List UInt8} (past : 2 ^ 32 ≤ nalu.length)
    (done : readNalu (be32 nalu.length ++ (nalu ++ rest)) = .ok (read, left)) : read ≠ nalu := by
  have cut : nalu.length % 2 ^ 32 < nalu.length :=
    Nat.lt_of_lt_of_le (Nat.mod_lt _ (by decide)) past
  rw [readNalu_be32] at done
  split at done
  · cases done
  cases done
  intro same
  have lengths := congrArg List.length same
  rw [List.length_take, List.length_append] at lengths
  omega

theorem visitNalus_of_lt {fuel more : Nat} (enough : data.length < fuel)
    (also_enough : data.length < more) : visitNalus fuel data = visitNalus more data := by
  induction fuel generalizing data more with
  | zero => omega
  | succ fuel ih =>
    obtain ⟨more, rfl⟩ := Nat.exists_eq_succ_of_ne_zero (Nat.ne_zero_of_lt also_enough)
    unfold visitNalus
    split
    · rfl
    · next nalu rest read =>
      have := readNalu_lt read
      rw [@ih rest more (by omega) (by omega)]

theorem forEachAvccNalu_of_error {left : List UInt8} (read : readNalu data = .error left) :
    forEachAvccNalu data = ([], left) := by
  unfold forEachAvccNalu visitNalus
  rw [read]

theorem forEachAvccNalu_of_ok (read : readNalu data = .ok (nalu, rest)) :
    forEachAvccNalu data =
      (nalu :: (forEachAvccNalu rest).1, (forEachAvccNalu rest).2) := by
  have shorter := readNalu_lt read
  unfold forEachAvccNalu
  rw [visitNalus, read]
  dsimp only
  rw [visitNalus_of_lt shorter (Nat.lt_succ_self rest.length)]

/-- The units are read back, and nothing is left, exactly when 32 bits hold every
length. -/
theorem forEachAvccNalu_lengthPrefixed (held : ∀ nalu ∈ nalus, nalu ≠ []) :
    forEachAvccNalu (lengthPrefixed nalus) = (nalus, []) ↔
      ∀ nalu ∈ nalus, nalu.length < 2 ^ 32 := by
  induction nalus with
  | nil =>
    have nothing : forEachAvccNalu (lengthPrefixed []) = ([], []) :=
      forEachAvccNalu_of_error rfl
    simp [nothing]
  | cons nalu nalus ih =>
    obtain ⟨first, others⟩ := List.forall_mem_cons.mp held
    have bytes : lengthPrefixed (nalu :: nalus) =
        be32 nalu.length ++ (nalu ++ lengthPrefixed nalus) := by
      simp [lengthPrefixed]
    rw [List.forall_mem_cons, bytes]
    by_cases fits : nalu.length < 2 ^ 32
    · rw [forEachAvccNalu_of_ok (readNalu_of_lt first fits), Prod.mk.injEq, List.cons.injEq,
        ← ih others, Prod.ext_iff]
      exact ⟨fun visited => ⟨fits, visited.1.2, visited.2⟩,
        fun visited => ⟨⟨rfl, visited.2.1⟩, visited.2.2⟩⟩
    · refine iff_of_false (fun visited => ?_) (fun all => fits all.1)
      rcases read : readNalu (be32 nalu.length ++ (nalu ++ lengthPrefixed nalus)) with
        left | ⟨unit, rest⟩
      · rw [forEachAvccNalu_of_error read] at visited
        cases visited
      · rw [forEachAvccNalu_of_ok read] at visited
        have same : unit = nalu := (List.cons.inj (Prod.mk.inj visited).1).1
        exact readNalu_of_le (Nat.not_lt.mp fits) read same

theorem held_of_mem_segments {segment : List UInt8} (mem : segment ∈ segments units) :
    segment ≠ [] := by
  have held := (List.mem_filter.mp mem).2
  rintro rfl
  cases held

/-! ### The round trip -/

def longUnits (nalus : List (List UInt8)) : List AnnexbUnit :=
  nalus.map (⟨true, ·⟩)

theorem delimited_longUnits (first : StartCodeFree before)
    (free : ∀ nalu ∈ nalus, StartCodeFree nalu) : Delimited before (longUnits nalus) := by
  induction nalus generalizing before with
  | nil => exact first
  | cons nalu nalus ih =>
    obtain ⟨here, others⟩ := List.forall_mem_cons.mp free
    exact ⟨first, nofun, ih here others⟩

theorem segments_longUnits (held : ∀ nalu ∈ nalus, nalu ≠ []) :
    segments (longUnits nalus) = nalus := by
  have maps : (longUnits nalus).map AnnexbUnit.segment = nalus := by
    simp [longUnits, Function.comp_def]
  unfold segments
  rw [maps, List.filter_eq_self]
  intro nalu mem
  simp [held nalu mem]

theorem avccToAnnexb_eq (held : ∀ nalu ∈ nalus, nalu ≠ [])
    (fits : ∀ nalu ∈ nalus, nalu.length < 2 ^ 32) :
    avccToAnnexb (lengthPrefixed nalus) = annexbBytes (longUnits nalus) := by
  unfold avccToAnnexb
  rw [(forEachAvccNalu_lengthPrefixed held).mpr fits]
  simp [annexbBytes, longUnits, AnnexbUnit.code, List.flatMap_map]

/-- The framings agree: NAL units without start codes pass through both conversions
unchanged, and from any byte string the segments between its start codes are
read back, as far as they are not empty, exactly when 32 bits hold their lengths. -/
theorem annexb_and_avcc_agree :
    (∀ nalus : List (List UInt8),
      (∀ nalu ∈ nalus, nalu ≠ [] ∧ nalu.length < 2 ^ 32 ∧ StartCodeFree nalu) →
      annexbToAvcc (avccToAnnexb (lengthPrefixed nalus)) = lengthPrefixed nalus) ∧
    ∀ annexb : List UInt8,
      (∃ before units, Delimited before units ∧ before ++ annexbBytes units = annexb) ∧
      ∀ before units, Delimited before units → before ++ annexbBytes units = annexb →
        (forEachAvccNalu (annexbToAvcc annexb) = (segments units, []) ↔
          ∀ segment ∈ segments units, segment.length < 2 ^ 32) := by
  refine ⟨fun nalus valid => ?_, fun annexb => ⟨exists_delimited annexb, ?_⟩⟩
  · have held : ∀ nalu ∈ nalus, nalu ≠ [] := fun nalu mem => (valid nalu mem).1
    have delimited : Delimited [] (longUnits nalus) :=
      delimited_longUnits startCodeFree_nil fun nalu mem => (valid nalu mem).2.2
    rw [avccToAnnexb_eq held fun nalu mem => (valid nalu mem).2.1,
      ← List.nil_append (annexbBytes _), annexbToAvcc_eq delimited, segments_longUnits held]
  · rintro before units delimited rfl
    rw [annexbToAvcc_eq delimited]
    exact forEachAvccNalu_lengthPrefixed fun segment => held_of_mem_segments

theorem annexb_and_avcc_agree_of_zeros :
    annexbToAvcc (avccToAnnexb (lengthPrefixed [[0, 0, 7], [1, 0, 0], [0]])) =
      lengthPrefixed [[0, 0, 7], [1, 0, 0], [0]] :=
  annexb_and_avcc_agree.1 [[0, 0, 7], [1, 0, 0], [0]] (by decide)

theorem startCodeFree_replicate (length : Nat) : StartCodeFree (List.replicate length 1) := by
  intro code
  have zero : 0 ∈ List.replicate length (1 : UInt8) := code.subset List.mem_cons_self
  exact absurd (List.eq_of_mem_replicate zero) (by decide)

theorem forEachAvccNalu_of_cut {length : Nat} (held : 0 < length) (cut : length % 2 ^ 32 = 0) :
    Delimited [] [⟨false, List.replicate length 1⟩] ∧
      segments [⟨false, List.replicate length 1⟩] = [List.replicate length 1] ∧
      forEachAvccNalu (annexbToAvcc (annexbBytes [⟨false, List.replicate length 1⟩])) =
        ([], List.replicate length 1) := by
  have delimited : Delimited [] [⟨false, List.replicate length 1⟩] :=
    ⟨startCodeFree_nil, fun _ => nofun, startCodeFree_replicate length⟩
  have whole : segments [⟨false, List.replicate length 1⟩] = [List.replicate length 1] := by
    simp [segments, Nat.ne_of_gt held]
  refine ⟨delimited, whole, ?_⟩
  have bytes : lengthPrefixed [List.replicate length 1] =
      be32 length ++ List.replicate length 1 := by
    simp [lengthPrefixed]
  rw [← List.nil_append (annexbBytes _), annexbToAvcc_eq delimited, whole, bytes]
  apply forEachAvccNalu_of_error
  rw [readNalu_be32, if_pos (.inl cut)]

/-- A segment of 2 ^ 32 bytes is written behind a length of zero, and nothing of it
is read back. -/
theorem overlong_segment_is_not_read :
    Delimited [] [⟨false, List.replicate (2 ^ 32) 1⟩] ∧
      segments [⟨false, List.replicate (2 ^ 32) 1⟩] = [List.replicate (2 ^ 32) 1] ∧
      forEachAvccNalu (annexbToAvcc (annexbBytes [⟨false, List.replicate (2 ^ 32) 1⟩])) =
        ([], List.replicate (2 ^ 32) 1) :=
  forEachAvccNalu_of_cut (by decide) (by decide)

end KeepPeek.Storage.Nal
