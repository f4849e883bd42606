import Mac80211.ParseElems

namespace Mac80211.ParseElems

open Function (update update_of_ne update_self)
open BeaconRx (once microsoft dtpc eidCiscoVendorSpecific eidWideBwChannelSwitch eidChannelSwitchWrapper eidVendorSpecific)
open Tlv (Placed)
open List (mem_cons_self length_cons mem_cons_of_mem getElem?_drop drop_drop length_nil)

variable {bytes : List UInt8} {o : Placed}

theorem lies_data (lies : o.Lies bytes) (k : Nat) (inside : k < o.data.length) : bytes[o.start + 2 + k]? = o.data[k]? := by
  obtain ⟨_,back,from_here⟩ := lies
  have read : (bytes.drop o.start)[k + 2]? = (o.data ++ back)[k]? := by
    rw [from_here]
    rfl
  rw [getElem?_drop,List.getElem?_append_left inside] at read
  rw [← read,Nat.add_assoc,Nat.add_comm 2 k]

theorem load_whole (lies : o.Lies bytes) : Tlv.load bytes o.start (o.data.length + 2) = some (Tlv.encode o.element) := by
  have stop := lies.stop_le
  obtain ⟨_,_,from_here⟩ := lies
  unfold Placed.stop at stop
  unfold Tlv.load
  rw [if_pos (by omega),from_here]
  exact congrArg some (List.take_left' rfl)

theorem load_data (lies : o.Lies bytes) : Tlv.load bytes (o.start + 2) o.data.length = some o.data := by
  have stop := lies.stop_le
  obtain ⟨_,_,from_here⟩ := lies
  unfold Placed.stop at stop
  unfold Tlv.load
  rw [if_pos stop,← drop_drop,from_here]
  exact congrArg some List.take_left

theorem startsWith_data (lies : o.Lies bytes) (pre : List UInt8) (k : Nat) (inside : k + pre.length ≤ o.data.length) :
    startsWith bytes (o.start + 2 + k) pre = some (decide ((o.data.drop k).take pre.length = pre)) := by
  induction pre generalizing k with
  | nil => simp [startsWith]
  | cons b rest ih =>
    rw [length_cons] at inside
    have here : k < o.data.length := by omega
    have read : bytes[o.start + 2 + k]? = some o.data[k] := (lies_data lies k here).trans (List.getElem?_eq_getElem here)
    have cut : (o.data.drop k).take (rest.length + 1) = o.data[k] :: (o.data.drop (k + 1)).take rest.length := by
      rw [List.drop_eq_getElem_cons here,List.take_succ_cons]
    unfold startsWith
    rw [read,length_cons,cut]
    by_cases same : o.data[k] = b
    · have later := ih (k + 1) (by omega)
      rw [← Nat.add_assoc] at later
      simp [same,later]
    · simp [same]

def special (o : Placed) : Bool :=
  o.id = eidVendorSpecific && microsoft o.data || o.id = eidCiscoVendorSpecific && dtpc o.data

structure Effect.Fits (o : Placed) (e : Effect) : Prop where
  starts : ∀ ie p, e.put = some (ie,p) → o.start ≤ p
  holds : ∀ ie p, e.put = some (ie,p) → p + ie.size ≤ o.stop
  covers : ∀ ie p, e.put = some (ie,p) → ie.recorded = true → p + o.data.length ≤ o.stop

theorem fits_none {hash : Bool} : Effect.Fits o ⟨none,hash,failed⟩ := ⟨nofun,nofun,nofun⟩

theorem fits_some {hash : Bool} (starts : o.start ≤ p) (holds : p + ie.size ≤ o.stop)
    (covers : ie.recorded = true → p + o.data.length ≤ o.stop) : Effect.Fits o ⟨some (ie,p),hash,failed⟩ where
  starts _ _ put := by cases put; exact starts
  holds _ _ put := by cases put; exact holds
  covers _ _ put := by cases put; exact covers

section cases
variable {x : Ext}

theorem vendorSpecific_spec (lies : o.Lies bytes) : ∃ e, vendorSpecific bytes (o.start + 2) o.data.length = some e ∧
    e.Fits o ∧ e.hash = microsoft o.data ∧ e.failed = false ∧ ∀ ie p, e.put = some (ie,p) → ie = .wmmInfo ∨ ie = .wmmParam := by
  unfold vendorSpecific microsoft
  by_cases short : o.data.length < 4
  · refine ⟨ignored,by rw [if_pos short]; rfl,fits_none,?_,rfl,nofun⟩
    simp [ignored,short]
  have oui := startsWith_data lies [0x00,0x50,0xf2] 0 (by simp only [length_cons,length_nil]; omega)
  simp only [Nat.add_zero,List.drop_zero,length_cons,length_nil,Nat.zero_add] at oui
  rw [if_neg short,oui]
  by_cases ms : o.data.take 3 = [0x00,0x50,0xf2]
  · by_cases typed : o.data.length < 5
    · refine ⟨{ignored with hash := true},by simp [ms,typed],fits_none,?_,rfl,nofun⟩
      simp [ms]
      omega
    have hashes : true = (decide (4 ≤ o.data.length) && true) := by simp only [Bool.and_true,true_eq_decide_iff]; omega
    have type := (lies_data lies 3 (by omega)).trans (List.getElem?_eq_getElem (by omega))
    have subtype := (lies_data lies 4 (by omega)).trans (List.getElem?_eq_getElem (by omega))
    have here : Effect.Fits o ⟨some (.wmmInfo,o.start + 2),true,false⟩ :=
      fits_some (by omega) (Nat.add_le_add_left (Nat.zero_le _) _) fun _ => Nat.le_refl _
    have there : Effect.Fits o ⟨some (.wmmParam,o.start + 2),true,false⟩ :=
      fits_some (by omega) (Nat.add_le_add_left (Nat.zero_le _) _) fun _ => Nat.le_refl _
    simp only [ms,typed,type,subtype,decide_true,Bool.not_true,Bool.false_eq_true,if_false,Option.bind_eq_bind,Option.bind_some]
    split_ifs
    · exact ⟨_,rfl,fits_none,hashes,rfl,nofun⟩
    · refine ⟨_,rfl,here,hashes,rfl,?_⟩
      intro ie p put
      cases put
      exact .inl rfl
    · refine ⟨_,rfl,there,hashes,rfl,?_⟩
      intro _ p put
      cases put
      exact .inr rfl
    · exact ⟨_,rfl,fits_none,hashes,rfl,nofun⟩
  · refine ⟨ignored,by simp [ms],fits_none,?_,rfl,nofun⟩
    simp [ignored,ms]

theorem channelSwitchWrapper_spec (finds : x.FindsComplete) (lies : o.Lies bytes) :
    ∃ e, channelSwitchWrapper bytes x action (o.start + 2) o.data.length = some e ∧ e.Fits o ∧ e.hash = false ∧
      ∀ ie p, e.put = some (ie,p) → ie = .wideBwChanswIe ∧ action = false := by
  unfold channelSwitchWrapper
  cases action with
  | true => exact ⟨refused,rfl,fits_none,rfl,nofun⟩
  | false =>
    simp only [Bool.false_eq_true,if_false,load_data lies,Option.bind_eq_bind,Option.bind_some]
    cases found : x.findIe eidWideBwChannelSwitch o.data with
    | none => exact ⟨ignored,rfl,fits_none,rfl,nofun⟩
    | some k =>
      obtain ⟨_,read,_⟩ := finds _ _ _ found
      have inside : k + 1 < o.data.length := (List.getElem?_eq_some_iff.mp read).1
      have byte := (lies_data lies (k + 1) inside).trans read
      rw [← Nat.add_assoc] at byte
      simp only [byte,Option.bind_some]
      split_ifs with three
      · subst three
        have size : Ie.wideBwChanswIe.size = 3 := rfl
        refine ⟨_,rfl,fits_some (by omega) ?_ nofun,rfl,?_⟩
        · rw [size]
          unfold Placed.stop
          have : (3 : UInt8).toNat = 3 := rfl
          omega
        · intro _ p put
          cases put
          exact ⟨rfl,trivial⟩
      · exact ⟨refused,rfl,fits_none,rfl,nofun⟩

theorem ciscoVendorSpecific_spec (lies : o.Lies bytes) : ∃ e, ciscoVendorSpecific bytes (o.start + 2) o.data.length = some e ∧
    e.Fits o ∧ e.hash = dtpc o.data ∧ ∀ ie p, e.put = some (ie,p) → ie = .ciscoDtpcElem := by
  unfold ciscoVendorSpecific dtpc
  by_cases short : o.data.length < 4
  · refine ⟨refused,by rw [if_pos short]; rfl,fits_none,?_,nofun⟩
    have other : o.data.length ≠ 6 := by omega
    simp [refused,other]
  have oui := startsWith_data lies [0x00,0x40,0x96,0x00] 0 (by simp only [length_cons,length_nil]; omega)
  rw [if_neg short,oui]
  by_cases cisco : o.data.take 4 = [0x00,0x40,0x96,0x00]
  · by_cases six : o.data.length = 6
    · refine ⟨⟨some (.ciscoDtpcElem,o.start + 2),true,false⟩,by simp [cisco,six],fits_some (by omega) ?_ nofun,by simp [cisco,six],?_⟩
      · unfold Placed.stop
        rw [six]
        exact Nat.le_refl _
      · intro _ p put
        cases put
        rfl
    · exact ⟨refused,by simp [cisco,six],fits_none,by simp [refused,six],nofun⟩
  · exact ⟨ignored,by simp [cisco],fits_none,by simp [ignored,cisco],nofun⟩

theorem row_fits (row : r ∈ rows) : Effect.Fits o (r.effect action (o.start + 2) o.data.length) := by
  have room : ∀ r ∈ rows, r.back ≤ 2 ∧ (r.ie.recorded = true → r.back = 0) ∧ (r.rule = .any → r.ie.size ≤ r.back) ∧
      (∀ n ∈ List.range 27, r.rule = .atLeast n ∨ r.rule = .exactly n → r.ie.size ≤ n + r.back) ∧
      (r.rule = .any ∨ ∃ n ∈ List.range 27, r.rule = .atLeast n ∨ r.rule = .exactly n) := by decide
  obtain ⟨back,_,any,bound,rule⟩ := room r row
  unfold Row.effect
  split_ifs with formed
  · have ok : r.rule.ok o.data.length = true := (Bool.and_eq_true_iff.mp formed).2
    have enough : r.ie.size ≤ o.data.length + r.back := by
      rcases rule with free | ⟨n,small,least | exact_⟩
      · exact Nat.le_trans (any free) (Nat.le_add_left _ _)
      · have := bound n small (.inl least)
        rw [least] at ok
        have := of_decide_eq_true ok
        omega
      · have := bound n small (.inr exact_)
        rw [exact_] at ok
        have := of_decide_eq_true ok
        omega
    refine fits_some (by omega) ?_ ?_
    · unfold Placed.stop
      omega
    · intro _
      unfold Placed.stop
      omega
  · exact fits_none

theorem find_row (row : r ∈ rows) : rows.find? (·.id = r.id) = some r := by
  have distinct : ∀ r ∈ rows, rows.find? (·.id = r.id) = some r := by decide
  exact distinct r row

theorem row_pointer (row : r ∈ rows) (row' : r' ∈ rows) (same : r.ie = r'.ie) : r = r' := by
  have distinct : ∀ r ∈ rows, ∀ r' ∈ rows, r.ie = r'.ie → r = r' := by decide
  exact distinct r row r' row' same

theorem switchElem_row (row : r ∈ rows) (pos elen : Nat) :
    switchElem bytes x action r.id pos elen = some (r.effect action pos elen) := by
  have plain : ∀ r ∈ rows, r.id ≠ eidVendorSpecific ∧ r.id ≠ eidMeshAwakeWindow ∧ r.id ≠ eidChannelSwitchWrapper ∧
      r.id ≠ eidCiscoVendorSpecific := by decide
  obtain ⟨vendor,awake,wrapper,cisco⟩ := plain r row
  unfold switchElem
  rw [if_neg vendor,if_neg awake,if_neg wrapper,if_neg cisco,find_row row]

def Effect.Owned (action : Bool) (o : Placed) (e : Effect) : Prop :=
  ∀ ie p, e.put = some (ie,p) → ∀ r ∈ rows, r.ie = ie → r.id = o.id ∨ action = false ∧ r.actionOnly = true

theorem owned_none {hash : Bool} : Effect.Owned action o ⟨none,hash,failed⟩ := nofun

theorem switchElem_spec (finds : x.FindsComplete) (lies : o.Lies bytes) :
    ∃ e, switchElem bytes x action o.id (o.start + 2) o.data.length = some e ∧ e.Fits o ∧ e.hash = special o ∧ e.Owned action o := by
  have unowned : ∀ r ∈ rows, r.ie ≠ .wmmInfo ∧ r.ie ≠ .wmmParam ∧ r.ie ≠ .awakeWindow ∧ r.ie ≠ .ciscoDtpcElem := by decide
  have wide : ∀ r ∈ rows, r.ie = .wideBwChanswIe → r.actionOnly = true := by decide
  unfold switchElem special
  split_ifs with vendor awake two wrapper cisco
  · obtain ⟨e,ran,fits,hash,_,owner⟩ := vendorSpecific_spec lies
    have other : eidVendorSpecific ≠ eidCiscoVendorSpecific := by decide
    refine ⟨e,ran,fits,by simp [vendor,hash,other],?_⟩
    intro ie p put r row same
    cases owner ie p put with
    | inl info => exact absurd (same.trans info) (unowned r row).1
    | inr param => exact absurd (same.trans param) (unowned r row).2.1
  · have plain : eidMeshAwakeWindow ≠ eidVendorSpecific ∧ eidMeshAwakeWindow ≠ eidCiscoVendorSpecific := by decide
    refine ⟨_,rfl,fits_some (by omega) ?_ nofun,by simp [taken,awake,plain],?_⟩
    · exact Nat.add_le_add_left two _
    · intro ie p put r row same
      cases put
      exact absurd same (unowned r row).2.2.1
  · have plain : eidMeshAwakeWindow ≠ eidVendorSpecific ∧ eidMeshAwakeWindow ≠ eidCiscoVendorSpecific := by decide
    exact ⟨_,rfl,fits_none,by simp [ignored,awake,plain],owned_none⟩
  · have plain : eidChannelSwitchWrapper ≠ eidVendorSpecific ∧ eidChannelSwitchWrapper ≠ eidCiscoVendorSpecific := by decide
    obtain ⟨e,ran,fits,hash,owner⟩ := @channelSwitchWrapper_spec bytes o x action finds lies
    refine ⟨e,ran,fits,by simp [wrapper,hash,plain],?_⟩
    intro ie p put r row same
    obtain ⟨rfl,beacon⟩ := owner ie p put
    exact .inr ⟨beacon,wide r row same⟩
  · obtain ⟨e,ran,fits,hash,owner⟩ := ciscoVendorSpecific_spec lies
    have other : eidCiscoVendorSpecific ≠ eidVendorSpecific := by decide
    refine ⟨e,ran,fits,by simp [cisco,hash,other],?_⟩
    intro ie p put r row same
    exact absurd (same.trans (owner ie p put)) (unowned r row).2.2.2
  cases found : rows.find? (·.id = o.id) with
  | none => exact ⟨ignored,rfl,fits_none,by simp [ignored,vendor,cisco],owned_none⟩
  | some r =>
    have row : r ∈ rows := List.mem_of_find?_eq_some found
    have own : r.id = o.id := by simpa using List.find?_some found
    refine ⟨_,rfl,row_fits row,?_,?_⟩
    · unfold Row.effect
      split_ifs <;> simp [taken,refused,vendor,cisco]
    · intro _ p put _ row' same
      unfold Row.effect at put
      split_ifs at put
      · cases put
        exact .inl ((congrArg Row.id (row_pointer row' row same)).trans own)
      · cases put

end cases

def Call.covered (c : Call) (o : Placed) : Bool := c.calcCrc && (c.filtered o.id || special o)

def Walk.after (c : Call) (w : Walk) (o : Placed) (e : Effect) : Walk where
  seen := fun other => w.seen other || (!e.failed && other = o.id)
  elems := (w.elems.set o.data.length e.put).fail e.failed
  crc := if c.covered o then c.ext.crc32Be w.crc (Tlv.encode o.element) else w.crc

def Walk.next (c : Call) (bytes : List UInt8) (w : Walk) (o : Placed) : Walk :=
  (w.visit c bytes o.id (o.start + 2) o.data.length).getD w

section walk
variable {c : Call} {w : Walk}

theorem hash_spec (lies : o.Lies bytes) (on : Bool) (crc : UInt32) :
    c.hash bytes (o.start + 2) o.data.length on crc = some (if on then c.ext.crc32Be crc (Tlv.encode o.element) else crc) := by
  unfold Call.hash
  cases on with
  | false => rfl
  | true =>
    rw [if_pos rfl,Nat.add_sub_cancel,load_whole lies]
    rfl

theorem special_unfiltered (special_ : special o = true) : c.filtered o.id = false := by
  have high : ¬ eidVendorSpecific < 64 ∧ ¬ eidCiscoVendorSpecific < 64 := by decide
  unfold Call.filtered
  rcases Bool.or_eq_true_iff.mp special_ with vendor | cisco
  · rw [of_decide_eq_true (Bool.and_eq_true_iff.mp vendor).1]
    simp [high.1]
  · rw [of_decide_eq_true (Bool.and_eq_true_iff.mp cisco).1]
    simp [high.2]

theorem visit_again (seen : (once o.id && w.seen o.id) = true) :
    w.visit c bytes o.id (o.start + 2) o.data.length = some {w with elems := w.elems.fail true} := if_pos seen

theorem visit_first (finds : c.ext.FindsComplete) (lies : o.Lies bytes) (unseen : (once o.id && w.seen o.id) = false) :
    ∃ e, switchElem bytes c.ext c.action o.id (o.start + 2) o.data.length = some e ∧ e.Fits o ∧ e.Owned c.action o ∧
      w.visit c bytes o.id (o.start + 2) o.data.length = some (w.after c o e) := by
  obtain ⟨e,ran,fits,hash,owned⟩ := @switchElem_spec bytes o c.ext c.action finds lies
  refine ⟨e,ran,fits,owned,?_⟩
  unfold Walk.visit
  rw [if_neg (by rw [unseen]; exact Bool.false_ne_true)]
  simp only [hash_spec lies,ran,hash,Option.bind_eq_bind,Option.bind_some]
  unfold Walk.after Call.covered
  cases hashed : special o with
  | false => simp only [Bool.and_false,Bool.false_eq_true,if_false,Bool.or_false]; rfl
  | true =>
    rw [special_unfiltered hashed]
    simp only [Bool.and_false,Bool.false_eq_true,if_false,Bool.false_or]
    rfl

theorem visit_next (finds : c.ext.FindsComplete) (lies : o.Lies bytes) :
    w.visit c bytes o.id (o.start + 2) o.data.length = some (w.next c bytes o) := by
  unfold Walk.next
  cases seen : once o.id && w.seen o.id with
  | true =>
    rw [visit_again seen]
    rfl
  | false =>
    obtain ⟨e,_,_,_,ran⟩ := visit_first finds lies seen
    rw [ran]
    rfl

theorem fail_fail (elems : Elems) (a b : Bool) : (elems.fail a).fail b = elems.fail (a || b) := by
  unfold Elems.fail
  rw [Bool.or_assoc]

-- The loop of the source is a fold over the elements placed in the bytes; what no element covers fails the parse.
theorem loop_walk (finds : c.ext.FindsComplete) (fuel : Nat) (s : Loop) (place : s.pos + s.left = bytes.length)
    (going : s.broken = false) (enough : s.left ≤ fuel) :
    ∃ t torn, Loops.whileM Loop.more (Loop.next c bytes) fuel s = some t ∧
      t.walk.elems.fail (t.left ≠ 0) = ((Tlv.placed fuel s.pos (bytes.drop s.pos)).foldl (Walk.next c bytes) s.walk).elems.fail torn ∧
      t.walk.crc = ((Tlv.placed fuel s.pos (bytes.drop s.pos)).foldl (Walk.next c bytes) s.walk).crc ∧
      (torn = false → bytes.drop s.pos = Tlv.encodeAll (Tlv.elements fuel (bytes.drop s.pos))) := by
  induction fuel generalizing s with
  | zero =>
    have ended : s.left = 0 := by omega
    have stop : s.more = false := by simp [Loop.more,ended]
    have all : bytes.drop s.pos = [] := List.drop_eq_nil_of_le (by omega)
    refine ⟨s,false,Loops.whileM_stop _ _ _ stop,by rw [ended]; rfl,rfl,?_⟩
    rw [all]
    exact fun _ => rfl
  | succ fuel ih =>
    have left : (bytes.drop s.pos).length = s.left := by rw [List.length_drop]; omega
    cases from_here : bytes.drop s.pos with
    | nil =>
      rw [from_here] at left
      have ended : s.left = 0 := left.symm
      refine ⟨s,false,Loops.whileM_stop _ _ _ (by simp [Loop.more,ended]),by rw [ended]; rfl,rfl,fun _ => rfl⟩
    | cons id more =>
      cases more with
      | nil =>
        rw [from_here] at left
        have ended : s.left = 1 := left.symm
        exact ⟨s,true,Loops.whileM_stop _ _ _ (by simp [Loop.more,ended]),by rw [ended]; rfl,rfl,nofun⟩
      | cons len rest =>
        have room : s.left = rest.length + 2 := by rw [← left,from_here]; rfl
        have more : s.more = true := by simp [Loop.more,going,room]
        have first : bytes[s.pos]? = some id := by
          rw [← Nat.add_zero s.pos,← getElem?_drop,from_here]
          rfl
        have second : bytes[s.pos + 1]? = some len := by
          rw [← getElem?_drop,from_here]
          rfl
        unfold Tlv.placed Tlv.elements
        by_cases long : len.toNat > rest.length
        · have ran : s.next c bytes = some ⟨s.pos + 2,s.left - 2,{s.walk with elems := s.walk.elems.fail true},true⟩ := by
            unfold Loop.next
            simp [first,second,room,long]
          rw [if_pos long,if_pos long,Loops.whileM_next _ _ _ more ran]
          refine ⟨_,true,Loops.whileM_stop _ _ _ rfl,?_,rfl,nofun⟩
          show (s.walk.elems.fail true).fail _ = _
          rw [fail_fail]
          rfl
        have lies : Placed.Lies ⟨s.pos,id,rest.take len.toNat⟩ bytes := by
          refine Tlv.placed_lies 1 s.pos _ ?_
          rw [from_here]
          unfold Tlv.placed
          rw [if_neg long]
          exact mem_cons_self ..
        have length : (rest.take len.toNat).length = len.toNat := List.length_take_of_le (by omega)
        have visited := visit_next (w := s.walk) finds lies
        rw [length] at visited
        have ran : s.next c bytes =
            some ⟨s.pos + 2 + len.toNat,s.left - 2 - len.toNat,s.walk.next c bytes ⟨s.pos,id,rest.take len.toNat⟩,false⟩ := by
          unfold Loop.next
          simp [first,second,room,long,visited]
        have later : bytes.drop (s.pos + 2 + len.toNat) = rest.drop len.toNat := by
          rw [← drop_drop,← drop_drop,from_here]
          rfl
        have fits : s.left - 2 - len.toNat ≤ fuel := by omega
        obtain ⟨t,torn,returned,elems,crc,whole⟩ := ih
          ⟨s.pos + 2 + len.toNat,s.left - 2 - len.toNat,s.walk.next c bytes ⟨s.pos,id,rest.take len.toNat⟩,false⟩
          (by simp only; omega) rfl fits
        simp only [later] at elems crc whole
        rw [if_neg long,if_neg long,Loops.whileM_next _ _ _ more ran]
        refine ⟨t,torn,returned,elems,crc,?_⟩
        intro complete
        show id :: len :: rest = Tlv.encode (id,rest.take len.toNat) ++ Tlv.encodeAll (Tlv.elements fuel (rest.drop len.toNat))
        rw [← whole complete]
        unfold Tlv.encode
        rw [length,UInt8.ofNat_toNat,List.cons_append,List.cons_append,List.take_append_drop]

def complete (bytes : List UInt8) : List Placed := Tlv.placed bytes.length 0 bytes

theorem complete_lies : ∀ o ∈ complete bytes, o.Lies bytes := @Tlv.placed_lies bytes bytes.length 0

theorem parse_walk (finds : c.ext.FindsComplete) (crc : UInt32) :
    ∃ torn, parseElemsCrc c bytes crc = some (((complete bytes).foldl (Walk.next c bytes) (startWalk bytes.length crc)).elems.fail torn,
        ((complete bytes).foldl (Walk.next c bytes) (startWalk bytes.length crc)).crc) ∧
      (torn = false → bytes = Tlv.encodeAll ((complete bytes).map Placed.element)) := by
  obtain ⟨t,torn,returned,elems,sum,whole⟩ :=
    loop_walk finds bytes.length ⟨0,bytes.length,startWalk bytes.length crc,false⟩ (Nat.zero_add _) rfl (Nat.le_refl _)
  refine ⟨torn,?_,?_⟩
  · unfold parseElemsCrc
    rw [returned]
    show some (t.walk.elems.fail (t.left ≠ 0),t.walk.crc) = _
    rw [elems,sum]
    rfl
  · intro untorn
    unfold complete
    rw [Tlv.placed_elements]
    exact whole untorn

theorem next_cases (finds : c.ext.FindsComplete) (lies : o.Lies bytes) (w : Walk) :
    ((once o.id && w.seen o.id) = true ∧ w.next c bytes o = {w with elems := w.elems.fail true}) ∨
      ((once o.id && w.seen o.id) = false ∧ ∃ e, switchElem bytes c.ext c.action o.id (o.start + 2) o.data.length = some e ∧ e.Fits o ∧
        e.Owned c.action o ∧ w.next c bytes o = w.after c o e) := by
  unfold Walk.next
  cases seen : once o.id && w.seen o.id with
  | true => exact .inl ⟨rfl,by rw [visit_again seen]; rfl⟩
  | false =>
    obtain ⟨e,ran,fits,owned,visited⟩ := visit_first finds lies seen
    exact .inr ⟨rfl,e,ran,fits,owned,by rw [visited]; rfl⟩

structure Within (os : List Placed) (elems : Elems) : Prop where
  one : ∀ ie p, elems.ptr ie = some p → ∃ o ∈ os, o.start ≤ p ∧ p + elems.extent ie ≤ o.stop
  plain : ∀ ie, ie.recorded = false → elems.len ie = 0

section set
variable {elems : Elems}

theorem set_ptr_self (elems : Elems) (ie : Ie) (elen p : Nat) : (elems.set elen (some (ie,p))).ptr ie = some p := update_self ..

theorem set_len_self (elems : Elems) (elen p : Nat) (recorded : ie.recorded = true) : (elems.set elen (some (ie,p))).len ie = UInt8.ofNat elen := by
  show (if ie.recorded then update elems.len ie (UInt8.ofNat elen) else elems.len) ie = _
  rw [if_pos recorded,update_self]

theorem set_ptr_of_ne (other : ∀ p, put ≠ some (ie,p)) : (elems.set elen put).ptr ie = elems.ptr ie := by
  cases put with
  | none => rfl
  | some set => exact update_of_ne (fun same => other set.2 (by rw [same])) ..

theorem set_len_of_ne (other : ∀ p, put ≠ some (ie,p)) : (elems.set elen put).len ie = elems.len ie := by
  cases put with
  | none => rfl
  | some set =>
    show (if set.1.recorded then update elems.len set.1 (UInt8.ofNat elen) else elems.len) ie = _
    split_ifs
    · exact update_of_ne (fun same => other set.2 (by rw [same])) ..
    · rfl

theorem set_len_plain (free : ie.recorded = false) : (elems.set elen put).len ie = elems.len ie := by
  cases put with
  | none => rfl
  | some set =>
    show (if set.1.recorded then update elems.len set.1 (UInt8.ofNat elen) else elems.len) ie = _
    split_ifs with recorded
    · exact update_of_ne (by rintro rfl; rw [recorded] at free; cases free) ..
    · rfl

end set

theorem within_set {e : Effect} (within : Within os elems) (member : o ∈ os) (lies : o.Lies bytes)
    (fits : e.Fits o) : Within os (elems.set o.data.length e.put) where
  plain ie free := (set_len_plain free).trans (within.plain ie free)
  one := by
    intro ie q found
    by_cases here : ∃ p, e.put = some (ie,p)
    · obtain ⟨p,put⟩ := here
      rw [put,set_ptr_self] at found
      cases found
      refine ⟨o,member,fits.starts ie q put,?_⟩
      have holds := fits.holds ie q put
      unfold Elems.extent
      cases recorded : ie.recorded with
      | false =>
        rw [set_len_plain recorded,within.plain ie recorded]
        simpa using holds
      | true =>
        have size : (UInt8.ofNat o.data.length).toNat = o.data.length := UInt8.toNat_ofNat'.trans (Nat.mod_eq_of_lt lies.1)
        have covers := fits.covers ie q put recorded
        rw [put,set_len_self _ _ _ recorded,size]
        omega
    · have other : ∀ p, e.put ≠ some (ie,p) := fun p put => here ⟨p,put⟩
      rw [set_ptr_of_ne other] at found
      unfold Elems.extent
      rw [set_len_of_ne other]
      exact within.one ie q found

theorem within_next (finds : c.ext.FindsComplete) (lies : o.Lies bytes) (member : o ∈ os)
    (within : Within os w.elems) : Within os (w.next c bytes o).elems := by
  obtain ⟨_,again⟩ | ⟨_,e,_,fits,_,first⟩ := next_cases finds lies w
  · rw [again]
    exact ⟨within.one,within.plain⟩
  · rw [first]
    have set := within_set within member lies fits
    exact ⟨set.one,set.plain⟩

def Found (r : Row) (o : Placed) (w : Walk) : Prop :=
  w.seen r.id = true ∧ w.elems.ptr r.ie = some (o.start + 2 - r.back) ∧
    (r.ie.recorded = true → w.elems.len r.ie = UInt8.ofNat o.data.length)

def formed (action : Bool) (r : Row) (o : Placed) : Bool := o.id = r.id && r.wellFormed action o.data.length

theorem found_kept (row : r ∈ rows) (single : once r.id = true) (finds : c.ext.FindsComplete)
    (lies : o.Lies bytes) (usable : c.action = true ∨ r.actionOnly = false) (found : Found r first w) :
    Found r first (w.next c bytes o) := by
  obtain ⟨seen,ptr,len⟩ := found
  obtain ⟨_,again⟩ | ⟨unseen,e,_,_,owned,after⟩ := next_cases finds lies w
  · rw [again]
    exact ⟨seen,ptr,len⟩
  have other : o.id ≠ r.id := by
    intro same
    rw [same,single,seen] at unseen
    cases unseen
  rw [after]
  have unset : ∀ p, e.put ≠ some (r.ie,p) := by
    intro p put
    rcases owned r.ie p put r row rfl with own | ⟨beacon,only⟩
    · exact other own.symm
    · rw [beacon,only] at usable
      simp at usable
  refine ⟨?_,(set_ptr_of_ne unset).trans ptr,fun recorded => (set_len_of_ne unset).trans (len recorded)⟩
  show (w.seen r.id || _) = true
  rw [seen]
  rfl

section
variable (row : r ∈ rows) (finds : c.ext.FindsComplete) (lies : o.Lies bytes) (unseen : w.seen r.id = false)
include row finds lies unseen

theorem found_first (well : formed c.action r o = true) : Found r o (w.next c bytes o) := by
  obtain ⟨same,rule⟩ := Bool.and_eq_true_iff.mp well
  have own : o.id = r.id := of_decide_eq_true same
  obtain ⟨seen,_⟩ | ⟨_,e,ran,_,_,after⟩ := next_cases finds lies w
  · rw [own,unseen,Bool.and_false] at seen
    cases seen
  · rw [own,switchElem_row row] at ran
    cases ran
    rw [after]
    have effect : r.effect c.action (o.start + 2) o.data.length = taken r.ie (o.start + 2 - r.back) := if_pos rule
    rw [effect]
    refine ⟨?_,set_ptr_self w.elems r.ie o.data.length _,set_len_self w.elems o.data.length (o.start + 2 - r.back)⟩
    show (w.seen r.id || (!false && r.id = o.id)) = true
    simp [own]

theorem unseen_kept (unformed : formed c.action r o = false) : (w.next c bytes o).seen r.id = false := by
  obtain ⟨_,again⟩ | ⟨_,e,ran,_,_,after⟩ := next_cases finds lies w
  · rw [again]
    exact unseen
  rw [after]
  show (w.seen r.id || (!e.failed && r.id = o.id)) = false
  rw [unseen,Bool.false_or]
  by_cases own : r.id = o.id
  · rw [← own,switchElem_row row] at ran
    cases ran
    have rule : r.wellFormed c.action o.data.length = false := by simpa [formed,own] using unformed
    have effect : r.effect c.action (o.start + 2) o.data.length = refused := if_neg (by rw [rule]; exact Bool.false_ne_true)
    rw [effect]
    rfl
  · simp [own]

end

theorem walk_first (row : r ∈ rows) (single : once r.id = true) (finds : c.ext.FindsComplete)
    (usable : c.action = true ∨ r.actionOnly = false) (os : List Placed) (lies : ∀ o ∈ os, o.Lies bytes)
    (unseen : w.seen r.id = false) (first : os.find? (formed c.action r) = some o) : Found r o (os.foldl (Walk.next c bytes) w) := by
  induction os generalizing w with
  | nil => cases first
  | cons o' rest ih =>
    have here := lies o' (mem_cons_self ..)
    have later : ∀ o ∈ rest, o.Lies bytes := fun o member => lies o (mem_cons_of_mem _ member)
    cases well : formed c.action r o' with
    | false =>
      rw [List.find?_cons_of_neg (by rw [well]; exact Bool.false_ne_true)] at first
      exact ih later (unseen_kept row finds here unseen well) first
    | true =>
      rw [List.find?_cons_of_pos well] at first
      cases first
      have found := found_first row finds here unseen well
      refine List.foldlRecOn rest _ found ?_
      intro w found o member
      exact found_kept row single finds (later o member) usable found

end walk

theorem parse_elems_crc_sound (c : Call) (finds : c.ext.FindsComplete) (start : List UInt8) (crc : UInt32) :
    ∃ elems sum, parseElemsCrc c start crc = some (elems,sum) ∧
      (∀ ie p, elems.ptr ie = some p →
        ∃ o ∈ complete start, o.Lies start ∧ o.start ≤ p ∧ p + elems.extent ie ≤ o.stop ∧ o.stop ≤ start.length) ∧
      (∀ r ∈ rows, once r.id = true → ∀ o, (complete start).find? (formed c.action r) = some o →
        elems.ptr r.ie = some (o.start + 2 - r.back) ∧ (r.ie.recorded = true → elems.len r.ie = UInt8.ofNat o.data.length)) ∧
      (elems.parseError = false →
        Tlv.Short ((complete start).map Placed.element) ∧ start = Tlv.encodeAll ((complete start).map Placed.element)) := by
  obtain ⟨torn,returned,whole⟩ := @parse_walk start c finds crc
  have lies : ∀ o ∈ complete start, o.Lies start := complete_lies
  refine ⟨_,_,returned,?_,?_,?_⟩
  · intro ie p found
    have within : Within (complete start) ((complete start).foldl (Walk.next c start) (startWalk start.length crc)).elems := by
      have empty : Within (complete start) (startWalk start.length crc).elems := ⟨fun _ _ found => (by cases found),fun _ _ => rfl⟩
      refine List.foldlRecOn (motive := fun w : Walk => Within (complete start) w.elems) (complete start) _ empty ?_
      intro w within o member
      exact within_next finds (lies o member) member within
    obtain ⟨o,member,starts,stops⟩ := within.one ie p found
    exact ⟨o,member,lies o member,starts,stops,(lies o member).stop_le⟩
  · intro r row single o first
    have usable : c.action = true ∨ r.actionOnly = false := by
      have well : formed c.action r o = true := List.find?_some first
      have allowed := (Bool.and_eq_true_iff.mp (Bool.and_eq_true_iff.mp well).2).1
      simpa using allowed
    exact (walk_first row single finds usable (complete start) lies rfl first).2
  · intro fine
    have untorn : torn = false := (Bool.or_eq_false_iff.mp fine).2
    refine ⟨?_,whole untorn⟩
    intro e element
    obtain ⟨o,member,rfl⟩ := List.mem_map.mp element
    exact (lies o member).1

def sampleExt : Ext where
  findIe id data := ((complete data).find? (·.id = id)).map Placed.start
  crc32Be := BeaconRx.crc32Be

theorem sampleExt_finds : sampleExt.FindsComplete := by
  intro _ data k found
  obtain ⟨o,first,rfl⟩ := Option.map_eq_some_iff.mp found
  have lies : o.Lies data := complete_lies o (List.mem_of_find?_eq_some first)
  have stop := lies.stop_le
  obtain ⟨small,_,from_here⟩ := lies
  refine ⟨UInt8.ofNat o.data.length,?_,?_⟩
  · rw [← getElem?_drop,from_here]
    rfl
  · rw [UInt8.toNat_ofNat',Nat.mod_eq_of_lt small]
    exact stop

theorem parse_elems_crc_sound_sample : ∃ elems sum, parseElemsCrc ⟨sampleExt,false,1⟩ [0,1,65,45,1,0,0,1,66] 0 = some (elems,sum) ∧
    elems.ptr .ssid = some 2 ∧ elems.len .ssid = 1 := by
  obtain ⟨elems,sum,returned,_,first,_⟩ := parse_elems_crc_sound ⟨sampleExt,false,1⟩ sampleExt_finds [0,1,65,45,1,0,0,1,66] 0
  obtain ⟨ptr,len⟩ := first ⟨0,.ssid,.any,0,false⟩ (by decide) rfl ⟨0,0,[65]⟩ (by decide)
  exact ⟨elems,sum,returned,ptr,len rfl⟩

section crc
variable {c : Call}

def Agree (c : Call) (w w' : Walk) : Prop := w.crc = w'.crc ∧ ∀ id, c.filtered id = true → w.seen id = w'.seen id

theorem filtered_calc {id : UInt8} (filtered : c.filtered id = true) : c.calcCrc = true := by
  unfold Call.calcCrc
  by_cases none_ : c.filter = 0
  · unfold Call.filtered at filtered
    rw [none_] at filtered
    simp at filtered
  · simpa using none_

theorem agree_skip (finds : c.ext.FindsComplete) (lies : o.Lies bytes) (agree : Agree c w w') (uncovered : c.covered o = false) :
    Agree c (w.next c bytes o) w' := by
  obtain ⟨_,again⟩ | ⟨_,e,_,_,_,after⟩ := next_cases finds lies w
  · rw [again]
    exact agree
  rw [after]
  refine ⟨?_,?_⟩
  · show (if c.covered o then _ else w.crc) = w'.crc
    rw [uncovered]
    exact agree.1
  · intro id filtered
    show (w.seen id || (!e.failed && id = o.id)) = w'.seen id
    have other : id ≠ o.id := by
      rintro rfl
      unfold Call.covered at uncovered
      rw [filtered_calc filtered,filtered] at uncovered
      cases uncovered
    simpa [other] using agree.2 id filtered

theorem filtered_failed {id : UInt8} (filtered : c.filtered id = true)
    (ran : switchElem bytes x action id pos elen = some e) (ran' : switchElem bytes' y action id pos' elen = some e') :
    e.failed = e'.failed := by
  have low : id < 64 := by simpa using (Bool.and_eq_true_iff.mp filtered).1
  have plain : ∀ id' ∈ [eidVendorSpecific,eidMeshAwakeWindow,eidChannelSwitchWrapper,eidCiscoVendorSpecific], id ≠ id' := by
    have high : ∀ id' ∈ [eidVendorSpecific,eidMeshAwakeWindow,eidChannelSwitchWrapper,eidCiscoVendorSpecific], ¬ id' < 64 := by decide +kernel
    intro id' member same
    exact high id' member (same ▸ low)
  unfold switchElem at ran ran'
  rw [if_neg (plain _ (by simp)),if_neg (plain _ (by simp)),if_neg (plain _ (by simp)),if_neg (plain _ (by simp))] at ran ran'
  cases found : rows.find? (·.id = id) with
  | none =>
    rw [found] at ran ran'
    cases ran
    cases ran'
    rfl
  | some =>
    rw [found] at ran ran'
    cases ran
    cases ran'
    unfold Row.effect
    split_ifs <;> rfl

theorem special_many (special_ : special o = true) : once o.id = false := by
  rcases Bool.or_eq_true_iff.mp special_ with vendor | cisco
  · rw [of_decide_eq_true (Bool.and_eq_true_iff.mp vendor).1]
    decide
  · rw [of_decide_eq_true (Bool.and_eq_true_iff.mp cisco).1]
    decide

theorem agree_step (finds : c.ext.FindsComplete) (lies : o.Lies bytes) (lies' : o'.Lies bytes') (same : o.element = o'.element)
    (agree : Agree c w w') (covered : c.covered o = true) : Agree c (w.next c bytes o) (w'.next c bytes' o') := by
  have id : o.id = o'.id := congrArg Prod.fst same
  have data : o.data = o'.data := congrArg Prod.snd same
  have covered' : c.covered o' = true := by
    have equal : c.covered o' = c.covered o := by unfold Call.covered special; rw [id,data]
    rw [equal,covered]
  have repeated : (once o.id && w.seen o.id) = (once o'.id && w'.seen o'.id) := by
    rw [← id]
    cases filtered : c.filtered o.id with
    | true => rw [agree.2 o.id filtered]
    | false =>
      have special_ : special o = true := by
        unfold Call.covered at covered
        rw [filtered,Bool.false_or] at covered
        exact (Bool.and_eq_true_iff.mp covered).2
      rw [special_many special_]
      rfl
  obtain ⟨again,next⟩ | ⟨first,e,ran,_,_,next⟩ := next_cases finds lies w
  · obtain ⟨_,next'⟩ | ⟨first',_⟩ := next_cases finds lies' w'
    · rw [next,next']
      exact agree
    · rw [repeated,first'] at again
      cases again
  obtain ⟨again',_⟩ | ⟨_,e',ran',_,_,next'⟩ := next_cases finds lies' w'
  · rw [repeated,again'] at first
    cases first
  rw [next,next']
  refine ⟨?_,?_⟩
  · show (if c.covered o then c.ext.crc32Be w.crc _ else w.crc) = if c.covered o' then c.ext.crc32Be w'.crc _ else w'.crc
    rw [if_pos covered,if_pos covered',agree.1,same]
  · intro other filtered
    show (w.seen other || (!e.failed && other = o.id)) = (w'.seen other || (!e'.failed && other = o'.id))
    rw [agree.2 other filtered,← id]
    by_cases own : other = o.id
    · rw [← id,← data] at ran'
      rw [own] at filtered
      rw [filtered_failed filtered ran ran']
    · simp [own]

-- The checksum is a run of its own: an element outside the filter leaves it and the seen filtered ids alone.
theorem agree_filter (finds : c.ext.FindsComplete) (os : List Placed) (lies : ∀ o ∈ os, o.Lies bytes) (agree : Agree c w w') :
    Agree c (os.foldl (Walk.next c bytes) w) ((os.filter c.covered).foldl (Walk.next c bytes) w') := by
  induction os generalizing w w' with
  | nil => exact agree
  | cons o rest ih =>
    have here := lies o (mem_cons_self ..)
    have later : ∀ o ∈ rest, o.Lies bytes := fun o member => lies o (mem_cons_of_mem _ member)
    cases covered : c.covered o with
    | true =>
      rw [List.filter_cons_of_pos covered]
      exact ih later (agree_step finds here here rfl agree covered)
    | false =>
      rw [List.filter_cons_of_neg (by rw [covered]; exact Bool.false_ne_true)]
      exact ih later (agree_skip finds here agree covered)

theorem agree_covered (finds : c.ext.FindsComplete) (os os' : List Placed) (lies : ∀ o ∈ os, o.Lies bytes)
    (lies' : ∀ o ∈ os', o.Lies bytes') (covered : ∀ o ∈ os, c.covered o = true) (same : os.map Placed.element = os'.map Placed.element)
    (agree : Agree c w w') : Agree c (os.foldl (Walk.next c bytes) w) (os'.foldl (Walk.next c bytes') w') := by
  induction os generalizing os' w w' with
  | nil =>
    cases os' with
    | nil => exact agree
    | cons => cases same
  | cons o rest ih =>
    cases os' with
    | nil => cases same
    | cons o' rest' =>
      obtain ⟨first,more⟩ := List.cons.inj same
      exact ih rest' (fun o member => lies o (mem_cons_of_mem _ member)) (fun o member => lies' o (mem_cons_of_mem _ member))
        (fun o member => covered o (mem_cons_of_mem _ member)) more
        (agree_step finds (lies o (mem_cons_self ..)) (lies' o' (mem_cons_self ..)) first agree (covered o (mem_cons_self ..)))

end crc

theorem parse_elems_crc_covered (c : Call) (finds : c.ext.FindsComplete) (start start' : List UInt8) (crc : UInt32)
    (same : ((complete start).filter c.covered).map Placed.element = ((complete start').filter c.covered).map Placed.element) :
    ∃ elems elems' sum, parseElemsCrc c start crc = some (elems,sum) ∧ parseElemsCrc c start' crc = some (elems',sum) := by
  obtain ⟨_,returned,_⟩ := @parse_walk start c finds crc
  obtain ⟨_,returned',_⟩ := @parse_walk start' c finds crc
  have lies : ∀ o ∈ complete start, o.Lies start := complete_lies
  have lies' : ∀ o ∈ complete start', o.Lies start' := complete_lies
  have from_start : Agree c (startWalk start.length crc) (startWalk start'.length crc) := ⟨rfl,fun _ _ => rfl⟩
  have whole : Agree c ((complete start).foldl (Walk.next c start) (startWalk start.length crc))
      (((complete start).filter c.covered).foldl (Walk.next c start) (startWalk start.length crc)) :=
    agree_filter finds (complete start) lies ⟨rfl,fun _ _ => rfl⟩
  have whole' : Agree c ((complete start').foldl (Walk.next c start') (startWalk start'.length crc))
      (((complete start').filter c.covered).foldl (Walk.next c start') (startWalk start'.length crc)) :=
    agree_filter finds (complete start') lies' ⟨rfl,fun _ _ => rfl⟩
  have filtered := agree_covered finds ((complete start).filter c.covered) ((complete start').filter c.covered)
    (fun o member => lies o (List.mem_of_mem_filter member)) (fun o member => lies' o (List.mem_of_mem_filter member))
    (fun o member => List.of_mem_filter member) same from_start
  rw [whole'.1,← filtered.1,← whole.1] at returned'
  exact ⟨_,_,_,returned,returned'⟩

theorem parse_elems_crc_covered_sample : ∃ elems elems' sum, parseElemsCrc ⟨sampleExt,false,1⟩ [0,1,65,3,1,6] 0 = some (elems,sum) ∧
    parseElemsCrc ⟨sampleExt,false,1⟩ [127,2,8,9,0,1,65] 0 = some (elems',sum) :=
  parse_elems_crc_covered ⟨sampleExt,false,1⟩ sampleExt_finds [0,1,65,3,1,6] [127,2,8,9,0,1,65] 0 (by decide)

end Mac80211.ParseElems
