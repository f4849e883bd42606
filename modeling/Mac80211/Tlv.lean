import Mathlib.Algebra.Ring.Nat
import Mathlib.Tactic.Common

namespace Tlv

open List (length_append append_assoc length_drop length_take drop_left take_append_drop flatten_cons take_left drop_drop cons_append mem_cons)

-- An identifier, a length and as many bytes. One longer than what is left ends them; every element takes
-- two bytes at least.
def elements : Nat → List UInt8 → List (UInt8 × List UInt8)
  | fuel + 1,id :: len :: rest =>
    if len.toNat > rest.length then [] else (id,rest.take len.toNat) :: elements fuel (rest.drop len.toNat)
  | _,_ => []

def encode (e : UInt8 × List UInt8) : List UInt8 := e.1 :: UInt8.ofNat e.2.length :: e.2

def encodeAll (es : List (UInt8 × List UInt8)) : List UInt8 := es.flatMap encode

def Short (es : List (UInt8 × List UInt8)) : Prop := ∀ e ∈ es, e.2.length < 256


theorem encodeAll_append (es fs : List (UInt8 × List UInt8)) : encodeAll (es ++ fs) = encodeAll es ++ encodeAll fs := List.flatMap_append

theorem elements_short (fuel : Nat) (bytes : List UInt8) : Short (elements fuel bytes) := by
  induction fuel generalizing bytes with
  | zero => exact nofun
  | succ fuel ih =>
    match bytes with
    | [] | [_] => exact nofun
    | id :: len :: rest =>
      unfold elements
      split_ifs
      · exact nofun
      · intro e member
        cases mem_cons.mp member with
        | inl first =>
          rw [first]
          exact Nat.lt_of_le_of_lt (List.length_take_le len.toNat rest) len.toNat_lt
        | inr later => exact ih (rest.drop len.toNat) e later

theorem elements_encodeAll (fuel : Nat) (short : Short es) (enough : es.length ≤ fuel) : elements fuel (encodeAll es) = es := by
  induction es generalizing fuel with
  | nil => cases fuel <;> rfl
  | cons e rest ih =>
    obtain ⟨id,data⟩ := e
    cases fuel with
    | zero => cases enough
    | succ fuel =>
      have fits : (UInt8.ofNat data.length).toNat = data.length := by
        have small : data.length < 256 := short (id,data) (List.mem_cons_self ..)
        simp only [UInt8.toNat_ofNat']
        omega
      have bytes : encodeAll ((id,data) :: rest) = id :: UInt8.ofNat data.length :: (data ++ encodeAll rest) := rfl
      rw [bytes]
      unfold elements
      rw [fits,length_append,if_neg (by omega),take_left,drop_left]
      rw [ih fuel (fun e member => short e (List.mem_cons_of_mem _ member)) (Nat.le_of_succ_le_succ enough)]

theorem encodeAll_injective (short : Short es) (short' : Short fs) (same : encodeAll es = encodeAll fs) : es = fs := by
  have first := elements_encodeAll (es.length + fs.length) short (Nat.le_add_right _ _)
  have second := elements_encodeAll (es.length + fs.length) short' (Nat.le_add_left _ _)
  rw [same] at first
  exact first.symm.trans second

structure Placed where
  start : Nat
  id : UInt8
  data : List UInt8
deriving DecidableEq

def Placed.stop (o : Placed) : Nat := o.start + 2 + o.data.length
def Placed.element (o : Placed) : UInt8 × List UInt8 := (o.id,o.data)

def placed : Nat → Nat → List UInt8 → List Placed
  | fuel + 1,pos,id :: len :: rest =>
    if len.toNat > rest.length then []
    else ⟨pos,id,rest.take len.toNat⟩ :: placed fuel (pos + 2 + len.toNat) (rest.drop len.toNat)
  | _,_,_ => []

def Placed.Lies (o : Placed) (bytes : List UInt8) : Prop :=
  o.data.length < 256 ∧ ∃ back, bytes.drop o.start = encode o.element ++ back

section placed
variable {o : Placed}

theorem placed_elements (fuel pos : Nat) (bytes : List UInt8) :
    (placed fuel pos bytes).map Placed.element = elements fuel bytes := by
  induction fuel generalizing pos bytes with
  | zero => rfl
  | succ fuel ih =>
    match bytes with
    | [] => rfl
    | [_] => rfl
    | id :: len :: rest =>
      unfold placed elements
      split_ifs
      · rfl
      · rw [List.map_cons,ih]
        rfl

theorem placed_lies (fuel pos : Nat) : ∀ o ∈ placed fuel pos (bytes.drop pos), o.Lies bytes := by
  induction fuel generalizing pos with
  | zero => exact nofun
  | succ fuel ih =>
    cases from_here : bytes.drop pos with
    | nil => exact nofun
    | cons id more =>
      cases more with
      | nil => exact nofun
      | cons len rest =>
        unfold placed
        split_ifs with long
        · exact nofun
        have later : rest.drop len.toNat = bytes.drop (pos + 2 + len.toNat) := by
          rw [← drop_drop,← drop_drop,from_here]
          rfl
        have length : (rest.take len.toNat).length = len.toNat := List.length_take_of_le (by omega)
        intro o member
        cases mem_cons.mp member with
        | inl first =>
          subst first
          refine ⟨by rw [length]; exact len.toNat_lt,rest.drop len.toNat,?_⟩
          show bytes.drop pos = id :: UInt8.ofNat (rest.take len.toNat).length :: rest.take len.toNat ++ rest.drop len.toNat
          rw [from_here,length,UInt8.ofNat_toNat,cons_append,cons_append,take_append_drop]
        | inr other =>
          rw [later] at other
          exact ih (pos + 2 + len.toNat) o other

theorem Placed.Lies.stop_le (lies : o.Lies bytes) : o.stop ≤ bytes.length := by
  obtain ⟨_,_,from_here⟩ := lies
  have count := congrArg List.length from_here
  rw [length_drop,length_append] at count
  have whole : (encode o.element).length = o.data.length + 2 := rfl
  unfold Placed.stop
  omega

end placed

-- What the new bytes hold is not known.
def put (fresh : Nat → UInt8) (buf : List UInt8) (n : Nat) : List UInt8 := buf ++ (List.range n).map fresh

-- From a position on, none if that leaves the buffer.
def store (buf : List UInt8) (pos : Nat) (bytes : List UInt8) : Option (List UInt8) :=
  if pos + bytes.length ≤ buf.length then some (buf.take pos ++ bytes ++ buf.drop (pos + bytes.length)) else none

def load (buf : List UInt8) (pos n : Nat) : Option (List UInt8) :=
  if pos + n ≤ buf.length then some ((buf.drop pos).take n) else none

def storeAll (buf : List UInt8) (pos : Nat) : List (List UInt8) → Option (List UInt8)
  | [] => some buf
  | piece :: rest => (store buf pos piece).bind fun buf => storeAll buf (pos + piece.length) rest

def leBytes : Nat → Nat → List UInt8
  | 0,_ => []
  | n + 1,v => UInt8.ofNat v :: leBytes n (v / 256)

def leValue : List UInt8 → Nat
  | [] => 0
  | b :: rest => b.toNat + 256 * leValue rest

section buffers

theorem store_replaces (front old bytes back : List UInt8) (place : front.length = pos) (same : old.length = bytes.length) :
    store (front ++ (old ++ back)) pos bytes = some (front ++ (bytes ++ back)) := by
  subst place
  unfold store
  rw [if_pos (by simp only [length_append]; omega),take_left,← same,← drop_drop,drop_left,drop_left,append_assoc]

theorem storeAll_replaces (front old back : List UInt8) (pieces : List (List UInt8)) (place : front.length = pos)
    (same : old.length = pieces.flatten.length) :
    storeAll (front ++ (old ++ back)) pos pieces = some (front ++ (pieces.flatten ++ back)) := by
  induction pieces generalizing front old pos with
  | nil =>
    cases List.length_eq_zero_iff.mp same
    rfl
  | cons piece rest ih =>
    rw [flatten_cons,length_append] at same
    have first : (old.take piece.length).length = piece.length := by
      rw [length_take]
      omega
    have later : (old.drop piece.length).length = rest.flatten.length := by
      rw [length_drop]
      omega
    have cut : front ++ (old ++ back) = front ++ (old.take piece.length ++ (old.drop piece.length ++ back)) := by
      rw [← append_assoc (old.take _),take_append_drop]
    have next : (front ++ piece).length = pos + piece.length := by rw [length_append,place]
    unfold storeAll
    rw [cut,store_replaces front _ piece _ place first,Option.bind_some,← append_assoc front piece,
      ih (front ++ piece) (old.drop piece.length) next later,flatten_cons,append_assoc,append_assoc]

theorem load_piece (front bytes back : List UInt8) (place : front.length = pos) (length : bytes.length = n) :
    load (front ++ (bytes ++ back)) pos n = some bytes := by
  subst place length
  unfold load
  rw [if_pos (by simp only [length_append]; omega),drop_left,take_left]

theorem load_nth (ps : List (List UInt8)) (found : ps[k]? = some bytes) (place : (ps.take k).flatten.length = pos)
    (length : bytes.length = n) : load ps.flatten pos n = some bytes := by
  have split : ps = ps.take k ++ bytes :: ps.drop (k + 1) := by
    obtain ⟨inside,rfl⟩ := List.getElem?_eq_some_iff.mp found
    rw [← List.drop_eq_getElem_cons inside,take_append_drop]
  rw [split,List.flatten_append,flatten_cons]
  exact load_piece _ _ _ place length

theorem store_nil (inside : pos ≤ buf.length) : store buf pos [] = some buf :=
  (if_pos inside).trans (congrArg some (by simp))

theorem store_cons (buf : List UInt8) (pos : Nat) (b : UInt8) (rest : List UInt8) :
    store buf pos (b :: rest) = (store buf pos [b]).bind fun buf => store buf (pos + 1) rest := by
  by_cases all : pos + (rest.length + 1) ≤ buf.length
  · have place : (buf.take pos).length = pos := List.length_take_of_le (by omega)
    have old : ((buf.drop (pos + 1)).take rest.length).length = rest.length := by
      rw [length_take,length_drop]
      omega
    have cut : buf = buf.take pos ++ ([buf[pos]] ++ ((buf.drop (pos + 1)).take rest.length ++ (buf.drop (pos + 1)).drop rest.length)) := by
      rw [take_append_drop,List.singleton_append,← List.drop_eq_getElem_cons,take_append_drop]
    have whole : store buf pos (b :: rest) = some (buf.take pos ++ (b :: rest ++ (buf.drop (pos + 1)).drop rest.length)) := by
      rw [← store_replaces (buf.take pos) (buf[pos] :: (buf.drop (pos + 1)).take rest.length) (b :: rest) _ place (by simpa using old)]
      exact congrArg (fun buf => store buf pos (b :: rest)) cut
    have first : store buf pos [b] =
        some (buf.take pos ++ [b] ++ ((buf.drop (pos + 1)).take rest.length ++ (buf.drop (pos + 1)).drop rest.length)) := by
      rw [append_assoc,← store_replaces (buf.take pos) [buf[pos]] [b] _ place rfl]
      exact congrArg (fun buf => store buf pos [b]) cut
    rw [whole,first,Option.bind_some,store_replaces _ _ rest _ (by rw [length_append,place]; rfl) old,append_assoc,
      List.singleton_append,cons_append]
  have none_left : store buf pos (b :: rest) = none := if_neg all
  rw [none_left]
  cases first : store buf pos [b] with
  | none => rfl
  | some stored =>
    obtain ⟨_,same⟩ := Option.ite_none_right_eq_some.mp first
    have length : stored.length = buf.length := by
      cases same
      simp only [length_append,length_take,length_drop,List.length_cons,List.length_nil]
      simp only [List.length_cons,List.length_nil] at *
      omega
    exact (if_neg (by omega)).symm

theorem store_length (done : store buf pos bytes = some stored) : stored.length = buf.length := by
  obtain ⟨_,same⟩ := Option.ite_none_right_eq_some.mp done
  cases same
  simp only [length_append,length_take,length_drop]
  omega

theorem storeAll_fits (start : pos ≤ buf.length) (pieces : List (List UInt8)) :
    storeAll buf pos pieces ≠ none ↔ pos + pieces.flatten.length ≤ buf.length := by
  induction pieces generalizing buf pos with
  | nil => exact iff_of_true nofun start
  | cons piece rest ih =>
    rw [flatten_cons,length_append,storeAll]
    by_cases inside : pos + piece.length ≤ buf.length
    · obtain ⟨stored,done⟩ : ∃ stored, store buf pos piece = some _ := ⟨_,if_pos inside⟩
      have length := store_length done
      rw [done,Option.bind_some,ih (by omega),length,Nat.add_assoc]
    · have outside : store buf pos piece = none := if_neg inside
      rw [outside,Option.bind_none]
      exact iff_of_false (fun some => some rfl) (by omega)

theorem load_outside (beyond : bytes.length < pos + n) : load bytes pos n = none := if_neg (by omega)

theorem load_inside (inside : pos + n ≤ bytes.length) : load bytes pos n = some ((bytes.drop pos).take n) := if_pos inside

theorem leBytes_length (n v : Nat) : (leBytes n v).length = n := by
  induction n generalizing v with
  | zero => rfl
  | succ n ih => exact congrArg Nat.succ (ih (v / 256))

theorem leValue_leBytes (n v : Nat) : leValue (leBytes n v) = v % 256 ^ n := by
  induction n generalizing v with
  | zero => exact (Nat.mod_one v).symm
  | succ n ih =>
    have digit : (UInt8.ofNat v).toNat = v % 256 := UInt8.toNat_ofNat'
    unfold leBytes leValue
    rw [ih,digit,Nat.pow_succ,Nat.mul_comm (256 ^ n),Nat.mod_mul]

end buffers

end Tlv
