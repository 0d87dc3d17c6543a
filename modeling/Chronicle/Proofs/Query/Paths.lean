import Chronicle.Proofs.Log.Limits
import Chronicle.Proofs.Text.ByteOrder
import Mathlib.Data.List.Infix
import Mathlib.Data.List.TakeWhile

/-!
# What a field name stands for in a path

A name is pasted between the quotes of a path, and its bytes are read there as the
body of a JSON string. Read so, a name without a backslash stands for itself
(`pathPoints_of_plain`). A name with one never does (`sameName_of_escaped`): each
escape uses up its backslash, an ASCII byte, for at most one ASCII character, so
the name stands for a text with fewer ASCII characters than it has itself.
-/

namespace Chronicle

namespace PathByte

/-! ## The bytes of characters -/

/-- The bytes that a character is written with. -/
def encoded (c : Char) : List Nat := (String.utf8EncodeChar c).map UInt8.toNat

/-- The bytes that a name is written with. -/
def bytesOf (cs : List Char) : List Nat := cs.flatMap encoded

theorem toList_loop_eq (bs : ByteArray) (i : Nat) (read : List UInt8) :
    ByteArray.toList.loop bs i read = read.reverse ++ bs.data.toList.drop i := by
  fun_induction ByteArray.toList.loop bs i read with
  | case1 i read within ih =>
    have inBounds : i < bs.data.toList.length := by simpa using within
    rw [ih, List.drop_eq_getElem_cons inBounds]
    simp [ByteArray.get!, within]
  | case2 i read outside =>
    rw [List.drop_eq_nil_of_le (by simpa using Nat.le_of_not_lt outside)]
    simp

theorem toList_toUTF8 (name : String) : name.toUTF8.toList = utf8 name := by
  rw [ByteArray.toList, toList_loop_eq, utf8]
  simp

theorem bytes_eq (name : String) :
    name.toUTF8.toList.map UInt8.toNat = bytesOf name.toList := by
  rw [toList_toUTF8, utf8_eq, List.map_flatMap]
  rfl

theorem leadBits_two (n : Nat) : leadBits (n % 32 + 192) = n % 32 := by
  unfold leadBits
  split_ifs <;> omega

theorem leadBits_three (n : Nat) : leadBits (n % 16 + 224) = n % 16 := by
  unfold leadBits
  split_ifs <;> omega

theorem leadBits_four (n : Nat) : leadBits (n % 8 + 240) = n % 8 := by
  unfold leadBits
  split_ifs <;> omega

/-- A character below 128 is its own byte. Any other has a first byte from 192 on,
whose bits the continuations complete to its code point. -/
theorem encoded_cases (c : Char) :
    (c.toNat < 0x80 ∧ encoded c = [c.toNat]) ∨
      ∃ lead more, encoded c = lead :: more ∧ 0xC0 ≤ lead ∧ more.length ≤ 3 ∧
        (∀ b ∈ more, isContinuation b) ∧ 0x80 ≤ c.toNat ∧
        more.foldl (fun n b => n * 64 + b % 64) (leadBits lead) = c.toNat := by
  have bounded : c.val.toNat < 1114112 := by
    have valid : c.val.toNat.isValidChar := c.valid
    unfold Nat.isValidChar at valid
    omega
  -- The bytes are numbers of 8 bits, whichever place they have in an encoding.
  have byte₂ (n : Nat) : (n % 32 + 192) % 2 ^ 8 = n % 32 + 192 := by omega
  have byte₃ (n : Nat) : (n % 16 + 224) % 2 ^ 8 = n % 16 + 224 := by omega
  have byte₄ (n : Nat) : (n % 8 + 240) % 2 ^ 8 = n % 8 + 240 := by omega
  have later (n : Nat) : (n % 64 + 128) % 2 ^ 8 = n % 64 + 128 := by omega
  have goesOn (n : Nat) : isContinuation (n % 64 + 128) := by
    simp only [isContinuation, Bool.and_eq_true, decide_eq_true_eq]
    omega
  have bits (n : Nat) : (n % 64 + 128) % 64 = n % 64 := by omega
  unfold encoded String.utf8EncodeChar
  simp only [Char.toNat]
  generalize c.val.toNat = n at bounded ⊢
  split_ifs with one two three
  · refine .inl ⟨by omega, ?_⟩
    rw [List.map_singleton, UInt8.toNat_ofNat', Nat.mod_eq_of_lt (by omega)]
  all_goals
    refine .inr ⟨_, _, rfl, ?_, by simp, ?_, by omega, ?_⟩ <;>
      simp only [List.map_cons, List.map_nil, List.forall_mem_cons, UInt8.toNat_ofNat', byte₂,
        byte₃, byte₄, later, goesOn, bits, leadBits_two, leadBits_three, leadBits_four,
        List.foldl_cons, List.foldl_nil, List.not_mem_nil, true_and, false_implies, implies_true]
  all_goals omega

theorem bytesOf_cons (c : Char) (cs : List Char) : bytesOf (c :: cs) = encoded c ++ bytesOf cs :=
  List.flatMap_cons

theorem length_le_bytesOf (cs : List Char) : cs.length ≤ (bytesOf cs).length := by
  induction cs with
  | nil => exact Nat.le_refl _
  | cons c cs ih =>
    have some_bytes : 1 ≤ (encoded c).length := by
      rcases encoded_cases c with ⟨-, one⟩ | ⟨lead, more, many, -⟩
      · simp [one]
      · simp [many]
    rw [bytesOf_cons, List.length_append, List.length_cons]
    omega

/-! ## Names without a backslash -/

/-- A character that is not ASCII is read up to where the next one begins. -/
theorem readPlain_encoded {lead : Nat} {more : List Nat} (high : 0xC0 ≤ lead)
    (short : more.length ≤ 3) (goOn : ∀ b ∈ more, isContinuation b) (cs : List Char) :
    readPlain lead (more ++ bytesOf cs) =
      (more.foldl (fun n b => n * 64 + b % 64) (leadBits lead), bytesOf cs) := by
  have next (k : Nat) : ((bytesOf cs).take k).takeWhile isContinuation = [] := by
    cases cs with
    | nil => simp [bytesOf]
    | cons c cs =>
      rw [bytesOf_cons]
      cases k with
      | zero => rfl
      | succ k =>
        rcases encoded_cases c with ⟨low, one⟩ | ⟨lead, more, many, high, -⟩
        · have below : isContinuation c.toNat = false := by simp [isContinuation]; omega
          simp [one, below]
        · have above : isContinuation lead = false := by simp [isContinuation]; omega
          simp [many, above]
  have taken : ((more ++ bytesOf cs).take 3).takeWhile isContinuation = more := by
    rw [List.take_append, List.take_of_length_le short, List.takeWhile_append_of_pos goOn, next,
      List.append_nil]
  unfold readPlain
  rw [if_neg (by omega)]
  simp [taken]

theorem dropLineEnds_of_ne {b : Nat} (plain : b ≠ 0x5C) (rest : List Nat) :
    dropLineEnds (b :: rest) = b :: rest := by
  simp [dropLineEnds, plain]

theorem readPoint_of_ne {b : Nat} (plain : b ≠ 0x5C) (rest : List Nat) :
    readPoint (b :: rest) = readPlain b rest := by
  unfold readPoint
  rw [dropLineEnds_of_ne plain]
  split
  · rename_i none
    cases none
  · rename_i escaped
    exact absurd (List.cons.inj escaped).1 plain
  · rename_i same
    obtain ⟨rfl, rfl⟩ := List.cons.inj same
    rfl

theorem readPoint_encoded {c : Char} (plain : c ≠ '\\') (cs : List Char) :
    readPoint (encoded c ++ bytesOf cs) = (c.toNat, bytesOf cs) := by
  rcases encoded_cases c with ⟨low, one⟩ | ⟨lead, more, many, high, short, goOn, -, point⟩
  · have differs : c.toNat ≠ 0x5C := fun same => plain (Char.toNat_inj.1 same)
    rw [one, List.singleton_append, readPoint_of_ne differs, readPlain, if_pos (by omega)]
  · rw [many, List.cons_append, readPoint_of_ne (by omega), readPlain_encoded high short goOn,
      point]

theorem readPoints_succ (fuel : Nat) {bytes : List Nat} (some_bytes : bytes ≠ []) :
    readPoints (fuel + 1) bytes = (readPoint bytes).1 :: readPoints fuel (readPoint bytes).2 := by
  cases bytes with
  | nil => exact absurd rfl some_bytes
  | cons b rest => rfl

theorem readPoints_of_plain {cs : List Char} (plain : '\\' ∉ cs) {fuel : Nat}
    (enough : cs.length ≤ fuel) : readPoints fuel (bytesOf cs) = cs.map Char.toNat := by
  induction cs generalizing fuel with
  | nil => cases fuel <;> rfl
  | cons c cs ih =>
    rw [List.mem_cons, not_or] at plain
    obtain ⟨fuel, rfl⟩ : ∃ n, fuel = n + 1 := ⟨fuel - 1, by simp at enough; omega⟩
    have some_bytes : bytesOf (c :: cs) ≠ [] := fun none => by
      have positive := length_le_bytesOf (c :: cs)
      simp [none] at positive
    have first : readPoint (bytesOf (c :: cs)) = (c.toNat, bytesOf cs) := by
      rw [bytesOf_cons, readPoint_encoded (Ne.symm plain.1)]
    rw [readPoints_succ fuel some_bytes, first,
      ih plain.2 (Nat.le_of_succ_le_succ enough), List.map_cons]

/-! ## Names with a backslash -/

/-- A code point of ASCII, other than NUL. -/
def isAscii (n : Nat) : Bool := 0 < n && n < 0x80

/-- How many code points or bytes are ASCII. -/
def ascii (points : List Nat) : Nat := points.countP isAscii

theorem ascii_cons (n : Nat) (points : List Nat) :
    ascii (n :: points) = (if isAscii n then 1 else 0) + ascii points := by
  rw [ascii, ascii, List.countP_cons, Nat.add_comm]

theorem ascii_cons_le (n : Nat) (points : List Nat) : ascii (n :: points) ≤ ascii points + 1 := by
  rw [ascii_cons]
  split <;> omega

theorem ascii_le_of_suffix {rest bytes : List Nat} (suffix : rest <:+ bytes) :
    ascii rest ≤ ascii bytes := suffix.sublist.countP_le

/-- The ASCII characters of a name are those of its bytes. -/
theorem ascii_bytesOf (cs : List Char) : ascii (bytesOf cs) = ascii (cs.map Char.toNat) := by
  induction cs with
  | nil => rfl
  | cons c cs ih =>
    rw [bytesOf_cons, List.map_cons, ascii_cons, ← ih, ascii, List.countP_append]
    congr 1
    rcases encoded_cases c with ⟨-, one⟩ | ⟨lead, more, many, high, -, goOn, beyond, -⟩
    · rw [one, List.countP_singleton]
    · have isNone : ∀ b ∈ encoded c, ¬ isAscii b := fun b present => by
        have above : 0x80 ≤ b := by
          rw [many, List.mem_cons] at present
          rcases present with rfl | later
          · omega
          · have goes := goOn b later
            simp only [isContinuation, Bool.and_eq_true, decide_eq_true_eq] at goes
            exact goes.1
        simp only [isAscii, Bool.and_eq_true, decide_eq_true_eq]
        omega
      rw [List.countP_eq_zero.2 isNone, if_neg]
      simp only [isAscii, Bool.and_eq_true, decide_eq_true_eq]
      omega

/-- Bytes that end the encoding of a text, from a first byte of a character on, are
the encoding of a text. -/
theorem char_of_suffix {b : Nat} {rest : List Nat} {cs : List Char}
    (suffix : b :: rest <:+ bytesOf cs) (high : 0xC0 ≤ b) :
    ∃ c cs', b :: rest = encoded c ++ bytesOf cs' := by
  -- Nothing below 192 can be the byte.
  have skip : ∀ passed tail : List Nat, (∀ x ∈ passed, x < 0xC0) →
      b :: rest <:+ passed ++ tail → b :: rest <:+ tail := fun passed tail below => by
    induction passed with
    | nil => exact id
    | cons x passed ih =>
      intro suffix
      rcases List.suffix_cons_iff.1 suffix with same | later
      · have := below x List.mem_cons_self
        have := (List.cons.inj same).1
        omega
      · exact ih (fun y inRest => below y (List.mem_cons_of_mem _ inRest)) later
  induction cs with
  | nil => exact absurd (List.eq_nil_of_suffix_nil suffix) (List.cons_ne_nil _ _)
  | cons c cs ih =>
    rw [bytesOf_cons] at suffix
    rcases encoded_cases c with ⟨low, one⟩ | ⟨lead, more, many, -, -, goOn, -⟩
    · exact ih (skip (encoded c) _ (by simp [one]; omega) suffix)
    · rw [many, List.cons_append] at suffix
      rcases List.suffix_cons_iff.1 suffix with same | later
      · exact ⟨c, cs, by rw [same, many, List.cons_append]⟩
      · refine ih (skip more _ (fun x present => ?_) later)
        have goes := goOn x present
        simp only [isContinuation, Bool.and_eq_true, decide_eq_true_eq] at goes
        exact goes.2

/-- A character that is read as it stands takes no backslash with it, and no more
ASCII than it gives. -/
theorem readPlain_takes {b : Nat} {rest : List Nat} {cs : List Char}
    (suffix : b :: rest <:+ bytesOf cs) :
    (readPlain b rest).2 <:+ rest ∧
      ascii ((readPlain b rest).1 :: (readPlain b rest).2) ≤ ascii (b :: rest) ∧
      (0x5C ∈ rest → 0x5C ∈ (readPlain b rest).2) := by
  rcases Nat.lt_or_ge b 0xC0 with low | high
  · rw [readPlain, if_pos low]
    exact ⟨List.suffix_refl _, Nat.le_refl _, id⟩
  · obtain ⟨c, cs', same⟩ := char_of_suffix suffix high
    rcases encoded_cases c with ⟨below, one⟩ | ⟨lead, more, many, highLead, short, goOn, beyond,
        point⟩
    · rw [one, List.singleton_append] at same
      obtain ⟨rfl, -⟩ := List.cons.inj same
      omega
    · rw [many, List.cons_append] at same
      obtain ⟨rfl, rfl⟩ := List.cons.inj same
      rw [readPlain_encoded high short goOn, point]
      refine ⟨List.suffix_append _ _, ?_, fun present => ?_⟩
      · have notAscii : isAscii c.toNat = false := by simp [isAscii]; omega
        rw [ascii_cons, notAscii]
        have kept : ascii (bytesOf cs') ≤ ascii (b :: (more ++ bytesOf cs')) :=
          ascii_le_of_suffix ((List.suffix_append _ _).trans (List.suffix_cons _ _))
        simpa using kept
      · rcases List.mem_append.1 present with inMore | inRest
        · exact absurd (goOn _ inMore) (by decide)
        · exact inRest

theorem dropLineEnds_takes (bytes : List Nat) :
    dropLineEnds bytes <:+ bytes ∧
      (dropLineEnds bytes = bytes ∨ ascii (dropLineEnds bytes) < ascii bytes) := by
  -- Each line end takes its backslash with it.
  have smaller (more : List Nat) {rest : List Nat} (dropped : dropLineEnds rest <:+ rest) :
      dropLineEnds rest <:+ 0x5C :: more ++ rest ∧
        (dropLineEnds rest = 0x5C :: more ++ rest ∨
          ascii (dropLineEnds rest) < ascii (0x5C :: more ++ rest)) := by
    refine ⟨dropped.trans (List.suffix_append _ _), .inr ?_⟩
    have kept : ascii (dropLineEnds rest) ≤ ascii (more ++ rest) :=
      ascii_le_of_suffix (dropped.trans (List.suffix_append _ _))
    rw [List.cons_append, ascii_cons]
    simp [isAscii]
    omega
  fun_induction dropLineEnds bytes with
  | case1 rest ih => exact smaller [_] ih.1
  | case2 rest ih => exact smaller [_, _] ih.1
  | case3 rest _ ih => exact smaller [_] ih.1
  | case4 rest ih => exact smaller [_, _, _] ih.1
  | case5 rest ih => exact smaller [_, _, _] ih.1
  | case6 bytes => exact ⟨List.suffix_refl _, .inl rfl⟩

/-- An escape without its backslash: one byte at least gives one code point. -/
theorem readEscape_takes (bytes : List Nat) :
    (readEscape bytes).2 <:+ bytes ∧
      ascii ((readEscape bytes).1 :: (readEscape bytes).2) ≤ ascii bytes := by
  have long (rest : List Nat) : (readLong rest).2 <:+ rest := by
    fun_cases readLong rest <;> simp [List.suffix_cons_iff]
  have letter {b : Nat} {read : Nat × List Nat} {rest : List Nat} (isLetter : isAscii b)
      (dropped : read.2 <:+ rest) :
      read.2 <:+ b :: rest ∧ ascii (read.1 :: read.2) ≤ ascii (b :: rest) := by
    refine ⟨dropped.trans (List.suffix_cons _ _), ?_⟩
    have := ascii_cons_le read.1 read.2
    have := ascii_le_of_suffix dropped
    rw [ascii_cons b, if_pos isLetter]
    omega
  fun_cases readEscape bytes with
  | case1 => exact ⟨List.suffix_refl _, Nat.le_refl _⟩
  | case2 rest => exact letter rfl (long rest)
  | case3 a b rest => exact letter rfl ((List.suffix_cons b rest).trans (List.suffix_cons a _))
  | case4 | case5 => exact ⟨List.nil_suffix, Nat.zero_le _⟩
  | case17 b rest =>
    refine ⟨List.suffix_cons _ _, ?_⟩
    have := ascii_le_of_suffix (List.suffix_cons b rest)
    rw [ascii_cons]
    simpa [isAscii, unknown] using this
  | _ rest => exact letter rfl (List.suffix_refl _)

/-- Reading a code point gives no more ASCII than it takes, and less when it begins
with a backslash. -/
theorem readPoint_takes {bytes : List Nat} {cs : List Char} (suffix : bytes <:+ bytesOf cs) :
    (readPoint bytes).2 <:+ bytes ∧
      ascii ((readPoint bytes).1 :: (readPoint bytes).2) ≤ ascii bytes ∧
      (0x5C ∈ bytes → 0x5C ∈ (readPoint bytes).2 ∨
        ascii ((readPoint bytes).1 :: (readPoint bytes).2) < ascii bytes) := by
  obtain ⟨dropped, sameOrLess⟩ := dropLineEnds_takes bytes
  have fewer := ascii_le_of_suffix dropped
  unfold readPoint
  split
  · rename_i none
    rw [none] at sameOrLess
    refine ⟨List.nil_suffix, Nat.zero_le _, fun present => ?_⟩
    rcases sameOrLess with rfl | less
    · cases present
    · exact .inr less
  · rename_i rest escaped
    obtain ⟨kept, taken⟩ := readEscape_takes rest
    rw [escaped] at dropped fewer
    have backslash : ascii (0x5C :: rest) = ascii rest + 1 := by
      rw [ascii_cons, if_pos (by decide), Nat.add_comm]
    refine ⟨kept.trans ((List.suffix_cons _ _).trans dropped), by omega, fun _ => .inr ?_⟩
    omega
  · rename_i b rest notEscape plain
    rw [plain] at dropped fewer sameOrLess
    obtain ⟨kept, taken, passes⟩ := readPlain_takes (dropped.trans suffix)
    refine ⟨kept.trans ((List.suffix_cons _ _).trans dropped), by omega, fun present => ?_⟩
    rcases sameOrLess with rfl | less
    · rcases List.mem_cons.1 present with same | inRest
      · exact absurd same.symm notEscape
      · exact .inl (passes inRest)
    · exact .inr (by omega)

/-- A name gives no more ASCII than it has, and less when it has a backslash. -/
theorem readPoints_takes (fuel : Nat) {bytes : List Nat} {cs : List Char}
    (suffix : bytes <:+ bytesOf cs) :
    ascii (readPoints fuel bytes) ≤ ascii bytes ∧
      (0x5C ∈ bytes → ascii (readPoints fuel bytes) < ascii bytes) := by
  induction fuel generalizing bytes with
  | zero =>
    refine ⟨Nat.zero_le _, fun present => ?_⟩
    exact List.countP_pos_iff.2 ⟨_, present, rfl⟩
  | succ fuel ih =>
    by_cases none : bytes = []
    · subst none
      exact ⟨Nat.le_refl _, fun present => by cases present⟩
    obtain ⟨kept, taken, escapes⟩ := readPoint_takes suffix
    obtain ⟨atMost, less⟩ := ih (kept.trans suffix)
    rw [readPoints_succ fuel none]
    rw [ascii_cons] at taken escapes ⊢
    refine ⟨by omega, fun present => ?_⟩
    rcases escapes present with later | now
    · have := less later
      omega
    · omega

end PathByte

open PathByte

/-- A name without a backslash stands for itself. -/
theorem pathPoints_of_plain {name : String} (plain : '\\' ∉ name.toList) :
    pathPoints name = points name := by
  unfold pathPoints points
  rw [bytes_eq]
  exact readPoints_of_plain plain (length_le_bytesOf _)

/-- Names without a NUL are compared as a whole. -/
theorem takeWhile_points {name : String} (clean : ¬ HasNul name) :
    (points name).takeWhile (· ≠ 0) = points name := by
  refine List.takeWhile_eq_self_iff.2 fun p present => ?_
  obtain ⟨c, inName, rfl⟩ := List.mem_map.1 present
  have notNul : c.toNat ≠ 0 := fun isZero => by
    obtain rfl : c = Char.ofNat 0 := Char.toNat_inj.1 isZero
    exact clean inName
  simpa using notNul

/-- A name with a backslash, and without a NUL, does not stand for itself. -/
theorem sameName_of_escaped {name : String} (escaped : '\\' ∈ name.toList)
    (clean : ¬ HasNul name) : sameName (points name) (pathPoints name) = false := by
  have backslash : 0x5C ∈ bytesOf name.toList := List.mem_flatMap.2 ⟨_, escaped, by decide⟩
  have fewer : ascii (pathPoints name) < ascii (points name) := by
    unfold pathPoints
    rw [bytes_eq, points, ← ascii_bytesOf]
    exact (readPoints_takes _ (List.suffix_refl _)).2 backslash
  rw [sameName, decide_eq_false_iff_not, takeWhile_points clean]
  intro same
  have shorter : ascii ((pathPoints name).takeWhile (· ≠ 0)) ≤ ascii (pathPoints name) :=
    (List.takeWhile_sublist _).countP_le
  rw [← same] at shorter
  omega

end Chronicle
