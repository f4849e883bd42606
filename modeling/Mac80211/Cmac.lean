import Mathlib.Data.List.GetD
import Mathlib.Data.List.Induction

namespace Cmac

-- CMAC over a function on blocks of 16 bytes.
abbrev Block := Fin 16 → UInt8

def get (b : Block) (i : Nat) : UInt8 := if small : i < 16 then b ⟨i,small⟩ else 0
def put (b : Block) (i : Nat) (v : UInt8) : Block := if small : i < 16 then Function.update b ⟨i,small⟩ v else b
def zero : Block := fun _ => 0
def add (a b : Block) : Block := fun i => a i ^^^ b i

def value (b : Block) : BitVec 128 := (List.ofFn b).foldl (fun v byte => v <<< 8 ||| byte.toBitVec.setWidth 128) 0
def ofValue (v : BitVec 128) : Block := fun i => ⟨v.extractLsb' (8 * (15 - i)) 8⟩

-- Multiplication by x in the field of 2^128 elements.
def double (v : BitVec 128) : BitVec 128 := if v.msb then v <<< 1 ^^^ 0x87 else v <<< 1

def subkey1 (enc : Block → Block) : BitVec 128 := double (value (enc zero))
def subkey2 (enc : Block → Block) : BitVec 128 := double (subkey1 enc)

-- The first block of a message, and the last one: one that is not full is
-- padded.
def block (m : List UInt8) : Block := fun i => m.getD i 0

def lastBlock (enc : Block → Block) (m : List UInt8) : Block :=
  if m.length = 16 then add (block m) (ofValue (subkey1 enc)) else add (block (m ++ [0x80])) (ofValue (subkey2 enc))

def chain (enc : Block → Block) : Nat → Block → List UInt8 → Block
  | 0,x,m => enc (add x (lastBlock enc m))
  | n + 1,x,m => chain enc n (enc (add x (block m))) (m.drop 16)

def cmac (enc : Block → Block) (m : List UInt8) : Block := chain enc ((m.length - 1) / 16) zero m

theorem get_put (b : Block) (small : i < 16) (v : UInt8) (j : Nat) : get (put b i v) j = if j = i then v else get b j := by
  unfold get put
  split
  · next inside =>
    by_cases same : j = i
    · subst same
      rw [if_pos rfl,Function.update_self]
    · rw [if_neg same,Function.update_of_ne (fun equal => same (congrArg Fin.val equal))]
  · next outside => rw [if_neg (by omega)]

theorem get_fin (b : Block) (i : Fin 16) : get b i = b i := dif_pos i.isLt

theorem block_ext (same : ∀ i < 16, get a i = get b i) : a = b := by
  funext i
  rw [← get_fin a,← get_fin b]
  exact same i i.isLt

theorem get_add (a b : Block) (i : Nat) : get (add a b) i = get a i ^^^ get b i := by
  unfold get add
  split
  · rfl
  · rfl

theorem get_block (m : List UInt8) (small : i < 16) : get (block m) i = m.getD i 0 := dif_pos small

theorem add_assoc (a b c : Block) : add (add a b) c = add a (add b c) := funext fun _ => UInt8.xor_assoc _ _ _
theorem add_comm (a b : Block) : add a b = add b a := funext fun _ => UInt8.xor_comm _ _

theorem fold_bits (bytes : List UInt8) (k : Nat) (small : k < 8 * bytes.length) (fits : bytes.length ≤ 16) :
    (bytes.foldl (fun (v : BitVec 128) byte => v <<< 8 ||| byte.toBitVec.setWidth 128) 0).getLsbD k =
      (bytes.getD (bytes.length - 1 - k / 8) 0).toBitVec.getLsbD (k % 8) := by
  induction bytes using List.reverseRecOn generalizing k with
  | nil => simp at small
  | append_singleton bytes byte ih =>
    rw [List.length_append,List.length_singleton] at small fits ⊢
    rw [List.foldl_append,List.foldl_cons,List.foldl_nil,BitVec.getLsbD_or,BitVec.getLsbD_shiftLeft,BitVec.getLsbD_setWidth,
      decide_eq_true (show k < 128 by omega),Bool.true_and,Bool.true_and]
    by_cases low : k < 8
    · have last : (bytes ++ [byte]).getD (bytes.length + 1 - 1 - k / 8) 0 = byte := by
        rw [Nat.div_eq_of_lt low]
        simp
      rw [last,decide_eq_true low,Nat.mod_eq_of_lt low]
      rfl
    · have above : byte.toBitVec.getLsbD k = false := BitVec.getLsbD_of_ge _ _ (by omega)
      have place : (bytes ++ [byte]).getD (bytes.length + 1 - 1 - k / 8) 0 = bytes.getD (bytes.length - 1 - (k - 8) / 8) 0 := by
        have shifted : bytes.length + 1 - 1 - k / 8 = bytes.length - 1 - (k - 8) / 8 := by omega
        rw [shifted,List.getD_append _ _ _ _ (by omega)]
      have rest : (k - 8) % 8 = k % 8 := by omega
      rw [above,decide_eq_false low,Bool.or_false,Bool.not_false,Bool.true_and,ih (k - 8) (by omega) (by omega),place,rest]

theorem value_bit (b : Block) (small : k < 128) : (value b).getLsbD k = (get b (15 - k / 8)).toBitVec.getLsbD (k % 8) := by
  have bits := fold_bits (List.ofFn b) k (by rw [List.length_ofFn]; exact small) (Nat.le_of_eq List.length_ofFn)
  rw [List.length_ofFn] at bits
  refine bits.trans ?_
  have place : (List.ofFn b).getD (16 - 1 - k / 8) 0 = get b (15 - k / 8) := by
    rw [get,dif_pos (by omega),List.getD_eq_getElem _ _ (by rw [List.length_ofFn]; omega),List.getElem_ofFn]
  rw [place]

theorem ofValue_bit (v : BitVec 128) (small : i < 16) (j : Nat) :
    (get (ofValue v) i).toBitVec.getLsbD j = (decide (j < 8) && v.getLsbD (8 * (15 - i) + j)) := by
  rw [get,dif_pos small]
  exact BitVec.getLsbD_extractLsb' _ _ _ _

theorem value_ofValue (v : BitVec 128) : value (ofValue v) = v := by
  apply BitVec.eq_of_getLsbD_eq
  intro k small
  rw [value_bit _ small,ofValue_bit _ (by omega),decide_eq_true (Nat.mod_lt k (by decide)),Bool.true_and]
  congr 1
  omega

theorem double_bit (v : BitVec 128) (small : k < 128) :
    (double v).getLsbD k = ((decide (0 < k) && v.getLsbD (k - 1)) ^^ (v.msb && (0x87 : BitVec 128).getLsbD k)) := by
  have moved : (v <<< 1).getLsbD k = (decide (0 < k) && v.getLsbD (k - 1)) := by
    rw [BitVec.getLsbD_shiftLeft,decide_eq_true small,Bool.true_and]
    cases k with
    | zero => rfl
    | succ => simp
  unfold double
  cases v.msb with
  | true =>
    rw [if_pos rfl,BitVec.getLsbD_xor,moved]
    rfl
  | false =>
    rw [if_neg Bool.false_ne_true,moved,Bool.false_and,Bool.xor_false]

end Cmac
