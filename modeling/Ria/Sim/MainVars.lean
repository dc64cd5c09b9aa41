import Ria.Sim.HostPoll

/-!
# The arguments of `main`

`sys_getmainvars` lays the arguments of the target program out in its memory.
A program that reads them from there, the count first and then the strings
that the words behind it point to, gets them back (`getmainvars_round_trip`).
-/

namespace Ria

open ByteMemory

/-! ## What a program reads -/

/-- The string at an address, up to the zero that ends it -/
def cString (memory : Memory 32) (addr : SimAddr) : List Byte :=
  (load memory addr (2 ^ 32)).takeWhile (· != 0)

/-- The arguments at an address, as `main` reads them -/
def mainArgs (memory : Memory 32) (pbuf : SimAddr) : List (List Byte) :=
  (List.range (word64 memory pbuf).toNat).map fun i =>
    cString memory
      ((word64 memory (pbuf + BitVec.ofNat 32 (8 * (i + 1)))).setWidth 32)

theorem cString_of_load {memory : Memory 32} {addr : SimAddr}
    {text : List Byte}
    (there : load memory addr (text.length + 1) = text ++ [0])
    (terminated : 0 ∉ text) (fits : text.length + 1 ≤ 2 ^ 32) :
    cString memory addr = text := by
  obtain ⟨rest, total⟩ := Nat.exists_eq_add_of_le fits
  have nonzero : ∀ c ∈ text, (c != 0) = true := by
    intro c member
    rw [bne_iff_ne]
    rintro rfl
    exact terminated member
  rw [cString, total, load_add, there, List.append_assoc,
    List.takeWhile_append_of_pos nonzero]
  simp

/-! ## What the host writes -/

section Layout

/-- The arguments behind each other, each with its zero -/
def argBytes (args : List (List Byte)) : List Byte :=
  args.flatMap fun arg => arg ++ [0]

theorem length_argBytes (args : List (List Byte)) :
    (argBytes args).length = (args.map fun arg => arg.length + 1).sum := by
  simp [argBytes, List.length_flatMap]

theorem length_argWords (pbuf : RegT) (sz : Nat) (args : List (List Byte)) :
    (argWords pbuf sz args).length = args.length := by
  induction args generalizing sz with
  | nil => rfl
  | cons arg rest induction => simp [argWords, induction]

theorem getElem_argWords (pbuf : RegT) (sz : Nat) (args : List (List Byte))
    (i : Nat) (inside : i < (argWords pbuf sz args).length) :
    (argWords pbuf sz args)[i] =
      BitVec.ofNat 64 (sz + (argBytes (args.take i)).length) + pbuf := by
  induction args generalizing sz i with
  | nil => cases inside
  | cons arg rest induction =>
      cases i with
      | zero => rfl
      | succ i =>
          have size : (argBytes ((arg :: rest).take (i + 1))).length =
              arg.length + 1 + (argBytes (rest.take i)).length := by
            rw [List.take_succ_cons, argBytes, List.flatMap_cons,
              List.length_append, List.length_append]
            rfl
          rw [size, ← Nat.add_assoc]
          exact induction (sz + (arg.length + 1)) i _

/-- The words in memory order -/
def wordBytes (words : List RegT) : List Byte :=
  words.flatMap fun word => toBytes 8 word.toNat

theorem length_wordBytes (words : List RegT) :
    (wordBytes words).length = 8 * words.length := by
  induction words with
  | nil => rfl
  | cons word rest induction =>
      rw [wordBytes, List.flatMap_cons, List.length_append, length_toBytes]
      change 8 + (wordBytes rest).length = _
      rw [induction, List.length_cons]
      omega

theorem overwrite_behind (front room bytes : List Byte) :
    overwrite (front ++ room) front.length bytes =
      front ++ bytes ++ room.drop bytes.length := by
  rw [overwrite, List.take_left' rfl, ← List.drop_drop, List.drop_left' rfl]

/-- The copies of the arguments fill what is left behind each other. -/
theorem copyArgs_eq (pbuf : RegT) (args : List (List Byte))
    (front : List Byte)
    (small : front.length + (argBytes args).length < 2 ^ 64) :
    (args.zip (argWords pbuf front.length args)).foldl
        (fun bytes copied =>
          overwrite bytes (copied.2 - pbuf).toNat (copied.1 ++ [0]))
        (front ++ List.replicate (argBytes args).length 0) =
      front ++ argBytes args := by
  induction args generalizing front with
  | nil => rfl
  | cons arg rest induction =>
      have size : (argBytes (arg :: rest)).length =
          (arg ++ [0]).length + (argBytes rest).length := by
        rw [argBytes, List.flatMap_cons, List.length_append]
        rfl
      have place : (BitVec.ofNat 64 front.length + pbuf - pbuf).toNat =
          front.length := by
        rw [BitVec.add_sub_cancel, BitVec.toNat_ofNat,
          Nat.mod_eq_of_lt (by omega)]
      have rests : (List.replicate (argBytes (arg :: rest)).length
          (0 : Byte)).drop (arg ++ [0]).length =
            List.replicate (argBytes rest).length 0 := by
        rw [List.drop_replicate, size, Nat.add_sub_cancel_left]
      have next : (front ++ (arg ++ [0])).length =
          front.length + (arg.length + 1) := by
        rw [List.length_append, List.length_append]
        rfl
      rw [argWords, List.zip_cons_cons, List.foldl_cons, place,
        overwrite_behind, rests, ← next]
      rw [induction (front ++ (arg ++ [0])) (by
        rw [List.length_append]
        omega), List.append_assoc]
      rfl

theorem length_mainWords (pbuf : RegT) (args : List (List Byte)) :
    (mainWords pbuf args).length = args.length + 3 := by
  simp [mainWords, length_argWords]

theorem mainSize_eq (args : List (List Byte)) :
    mainSize args = wordsSize args + (argBytes args).length := by
  rw [mainSize, length_argBytes]

/-- What the host writes: the words and behind them the arguments. -/
theorem mainBytes_eq (pbuf : RegT) {args : List (List Byte)}
    (small : mainSize args < 2 ^ 64) :
    mainBytes pbuf args =
      wordBytes (mainWords pbuf args) ++ argBytes args := by
  have size : (wordBytes (mainWords pbuf args)).length = wordsSize args := by
    rw [length_wordBytes, length_mainWords, wordsSize, Nat.mul_comm]
  have start : overwrite (List.replicate (mainSize args) 0) 0
      (wordBytes (mainWords pbuf args)) =
        wordBytes (mainWords pbuf args) ++
          List.replicate (argBytes args).length 0 := by
    rw [overwrite, List.take_zero, List.nil_append, Nat.zero_add, size,
      List.drop_replicate, mainSize_eq, Nat.add_sub_cancel_left]
  have copied := copyArgs_eq pbuf args (wordBytes (mainWords pbuf args)) (by
    rw [size, ← mainSize_eq]
    exact small)
  rw [size] at copied
  rw [← copied, ← start]
  rfl

end Layout

section Memory

variable {args : List (List Byte)} {pbuf : RegT}

theorem length_mainBytes (pbuf : RegT) (small : mainSize args < 2 ^ 64) :
    (mainBytes pbuf args).length = mainSize args := by
  rw [mainBytes_eq pbuf small, List.length_append, length_wordBytes,
    length_mainWords, mainSize_eq, wordsSize, Nat.mul_comm]

/-- A word of the layout, where the target finds it. -/
theorem word64_mainBytes (memory : Memory 32)
    (fits : mainSize args ≤ 2 ^ 32) {i : Nat} {word : RegT}
    (entry : (mainWords pbuf args)[i]? = some word) :
    word64 (write memory (pbuf.setWidth 32) (mainBytes pbuf args))
        (pbuf.setWidth 32 + BitVec.ofNat 32 (8 * i)) = word := by
  rcases List.getElem?_eq_some_iff.mp entry with ⟨inside, rfl⟩
  have small : mainSize args < 2 ^ 64 := Nat.lt_of_le_of_lt fits (by decide)
  have total := length_mainBytes pbuf small
  have parts : mainBytes pbuf args =
      wordBytes ((mainWords pbuf args).take i) ++
        (toBytes 8 (mainWords pbuf args)[i].toNat ++
          (wordBytes ((mainWords pbuf args).drop (i + 1)) ++
            argBytes args)) := by
    have whole := List.take_append_drop i (mainWords pbuf args)
    rw [List.drop_eq_getElem_cons inside] at whole
    rw [mainBytes_eq pbuf small]
    conv_lhs => rw [← whole]
    rw [wordBytes, List.flatMap_append, List.flatMap_cons, List.append_assoc,
      List.append_assoc]
    rfl
  have before : (wordBytes ((mainWords pbuf args).take i)).length = 8 * i := by
    rw [length_wordBytes, List.length_take, Nat.min_eq_left (by omega)]
  rw [parts] at total ⊢
  have read := load_write_part memory (pbuf.setWidth 32)
    (Nat.le_trans (Nat.le_of_eq total) fits)
  rw [before, length_toBytes] at read
  rw [word64, read, ofBytes_toBytes]
  apply BitVec.eq_of_toNat_eq
  rw [BitVec.toNat_ofNat, Nat.mod_mod,
    Nat.mod_eq_of_lt (mainWords pbuf args)[i].isLt]

theorem cString_mainBytes (memory : Memory 32)
    (fits : mainSize args ≤ 2 ^ 32) {i : Nat} (inside : i < args.length)
    (terminated : 0 ∉ args[i]) :
    cString (write memory (pbuf.setWidth 32) (mainBytes pbuf args))
        ((BitVec.ofNat 64 (wordsSize args +
          (argBytes (args.take i)).length) + pbuf).setWidth 32) = args[i] := by
  have small : mainSize args < 2 ^ 64 := Nat.lt_of_le_of_lt fits (by decide)
  have total := length_mainBytes pbuf small
  have parts : mainBytes pbuf args =
      (wordBytes (mainWords pbuf args) ++ argBytes (args.take i)) ++
        ((args[i] ++ [0]) ++ argBytes (args.drop (i + 1))) := by
    have whole := List.take_append_drop i args
    rw [List.drop_eq_getElem_cons inside] at whole
    have split : argBytes args = argBytes (args.take i) ++
        ((args[i] ++ [0]) ++ argBytes (args.drop (i + 1))) := by
      conv_lhs => rw [← whole]
      rw [argBytes, List.flatMap_append, List.flatMap_cons]
      rfl
    rw [mainBytes_eq pbuf small, split]
    exact (List.append_assoc _ _ _).symm
  have before : (wordBytes (mainWords pbuf args) ++
      argBytes (args.take i)).length =
        wordsSize args + (argBytes (args.take i)).length := by
    rw [List.length_append, length_wordBytes, length_mainWords, wordsSize,
      Nat.mul_comm]
  have place : (BitVec.ofNat 64 (wordsSize args +
      (argBytes (args.take i)).length) + pbuf).setWidth 32 =
        pbuf.setWidth 32 + BitVec.ofNat 32 (wordsSize args +
          (argBytes (args.take i)).length) := by
    rw [BitVec.setWidth_add _ _ (by decide), BitVec.add_comm,
      BitVec.setWidth_ofNat_of_le (by decide)]
  have size : args[i].length + 1 ≤ 2 ^ 32 := by
    rw [parts] at total
    simp only [List.length_append] at total
    change _ + (args[i].length + 1 + _) = _ at total
    omega
  rw [place]
  apply cString_of_load _ terminated size
  rw [parts] at total ⊢
  have read := load_write_part memory (pbuf.setWidth 32)
    (Nat.le_trans (Nat.le_of_eq total) fits)
  have length : (args[i] ++ [0]).length = args[i].length + 1 :=
    List.length_append
  rw [before, length] at read
  exact read

/-- The program reads its arguments back. -/
theorem mainArgs_mainBytes (memory : Memory 32)
    (fits : mainSize args ≤ 2 ^ 32) (terminated : ∀ arg ∈ args, 0 ∉ arg) :
    mainArgs (write memory (pbuf.setWidth 32) (mainBytes pbuf args))
      (pbuf.setWidth 32) = args := by
  have few : args.length < 2 ^ 64 := by
    rw [mainSize, wordsSize] at fits
    omega
  have count : word64 (write memory (pbuf.setWidth 32) (mainBytes pbuf args))
      (pbuf.setWidth 32) = BitVec.ofNat 64 args.length := by
    have entry : (mainWords pbuf args)[0]? =
        some (BitVec.ofNat 64 args.length) := rfl
    have first := word64_mainBytes memory fits entry
    rwa [Nat.mul_zero, BitVec.add_zero] at first
  rw [mainArgs, count, BitVec.toNat_ofNat, Nat.mod_eq_of_lt few]
  apply List.ext_getElem
  · rw [List.length_map, List.length_range]
  · intro i left right
    have inside : i < (argWords pbuf (wordsSize args) args).length := by
      rw [length_argWords]
      exact right
    have entry : (mainWords pbuf args)[i + 1]? = some (BitVec.ofNat 64
        (wordsSize args + (argBytes (args.take i)).length) + pbuf) := by
      rw [mainWords, List.getElem?_cons_succ,
        List.getElem?_append_left inside, List.getElem?_eq_getElem inside,
        getElem_argWords]
    rw [List.getElem_map, List.getElem_range,
      word64_mainBytes memory fits entry]
    exact cString_mainBytes memory fits right
      (terminated args[i] (List.getElem_mem right))

theorem nulls_mainBytes (memory : Memory 32)
    (fits : mainSize args ≤ 2 ^ 32) {i : Nat} (behind : i < 2) :
    word64 (write memory (pbuf.setWidth 32) (mainBytes pbuf args))
      (pbuf.setWidth 32 + BitVec.ofNat 32 (8 * (args.length + 1 + i))) =
        0 := by
  have pointers := length_argWords pbuf (wordsSize args) args
  have place : args.length + 1 + i = args.length + i + 1 := by omega
  have null : ([0, 0] : List RegT)[i]? = some 0 := by
    have either : i = 0 ∨ i = 1 := by omega
    rcases either with rfl | rfl
    · rfl
    · rfl
  have entry : (mainWords pbuf args)[args.length + i + 1]? = some 0 := by
    rw [mainWords, List.getElem?_cons_succ,
      List.getElem?_append_right (by omega), pointers,
      Nat.add_sub_cancel_left]
    exact null
  rw [place]
  exact word64_mainBytes memory fits entry

end Memory

variable {ω : Type} {config : HostConfig (Memory 32) ω}

/-- `sys_getmainvars` writes nothing if the arguments do not fit.  Otherwise
the program reads them back, both null pointers behind them included, and
nothing else in memory changes. -/
theorem getmainvars_round_trip (bytes : InFrontOfBytes config)
    (terminated : ∀ arg ∈ config.targetArgs, 0 ∉ arg)
    (fits : mainSize config.targetArgs ≤ 2 ^ 32) (pbuf limit : RegT)
    (state : HostState (Memory 32) ω) :
    (limit.toNat < mainSize config.targetArgs →
      sysGetmainvars config pbuf limit state =
        .ok ((-enomem).signExtend 64, state)) ∧
    (mainSize config.targetArgs ≤ limit.toNat →
      ∃ memory, sysGetmainvars config pbuf limit state =
          .ok (0, { state with memory }) ∧
        mainArgs memory (pbuf.setWidth 32) = config.targetArgs ∧
        (∀ i, i < 2 → word64 memory (pbuf.setWidth 32 + BitVec.ofNat 32
          (8 * (config.targetArgs.length + 1 + i))) = 0) ∧
        ∀ target, mainSize config.targetArgs ≤
            (target - pbuf.setWidth 32).toNat →
          memory target = state.memory target) := by
  have small : mainSize config.targetArgs < 2 ^ 64 :=
    Nat.lt_of_le_of_lt fits (by decide)
  have size := length_mainBytes pbuf small
  constructor
  · intro ended
    rw [sysGetmainvars]
    exact congrFun (if_pos (by rwa [size])) state
  intro room
  have written := memWrite_bytes bytes pbuf (Nat.le_trans
    (Nat.le_of_eq size) fits) state
  refine ⟨write state.memory (pbuf.setWidth 32)
    (mainBytes pbuf config.targetArgs), ?_,
    mainArgs_mainBytes state.memory fits terminated,
    fun i behind => nulls_mainBytes state.memory fits behind,
    fun target outside => write_outside (by rwa [size])⟩
  rw [sysGetmainvars]
  refine (congrFun (if_neg (by omega)) state).trans ?_
  exact HostM.bind_ok written

/-- A program with the arguments `a` and `bc` -/
def greeted : HostConfig (Memory 32) Unit where
  memif := bytesMemif
  os := fun _ _ => ((), ⟨-1, 38, [], ⟨0, 0, 0, 0, 0, 0, 0, 0, 0, 0, 0, 0, 0⟩⟩)
  targetArgs := [[0x61], [0x62, 0x63]]
  tohostAddr := 0
  fromhostAddr := 0

/-- The host before the program runs -/
def greetedHost : HostState (Memory 32) Unit where
  memory := fun _ => 0
  os := ()
  fds := []
  chroot := []
  exitcode := 0
  stopped := false
  fromhostQueue := []
  printed := []

theorem getmainvars_round_trip_greeted :
    ∃ memory, sysGetmainvars greeted 0x1000 64 greetedHost =
        .ok (0, { greetedHost with memory }) ∧
      mainArgs memory 0x1000 = [[0x61], [0x62, 0x63]] := by
  have bytes : InFrontOfBytes greeted := rfl
  have room : mainSize greeted.targetArgs ≤ (64 : RegT).toNat := by decide
  have both := getmainvars_round_trip bytes (by decide) (by decide) 0x1000 64
    greetedHost
  rcases both.2 room with ⟨memory, ran, read, -⟩
  exact ⟨memory, ran, read⟩

end Ria
