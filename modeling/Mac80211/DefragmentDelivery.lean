import Mac80211.Defragment

namespace Mac80211.Defragment
open Ieee80211
open RxReorder (timeAfter)
open List (mem_singleton mem_append)

structure Alike (rx other : Rx) : Prop where
  seq : rx.seq = other.seq
  queue : rx.seqnoIdx = other.seqnoIdx
  receiver : rx.skb.hdr.addr1 = other.skb.hdr.addr1
  transmitter : rx.skb.hdr.addr2 = other.skb.hdr.addr2
  ftype : rx.fc &&& fctlFtype = other.fc &&& fctlFtype

theorem Alike.refl (rx : Rx) : Alike rx rx := ⟨rfl,rfl,rfl,rfl,rfl⟩
theorem Alike.symm (alike : Alike rx other) : Alike other rx :=
  ⟨alike.seq.symm,alike.queue.symm,alike.receiver.symm,alike.transmitter.symm,alike.ftype.symm⟩
theorem Alike.trans (left : Alike rx middle) (right : Alike middle other) : Alike rx other :=
  ⟨left.seq.trans right.seq,left.queue.trans right.queue,left.receiver.trans right.receiver,
    left.transmitter.trans right.transmitter,left.ftype.trans right.ftype⟩

-- The parts are of one sequence number and sender, and in the order of their fragment numbers.
structure Msdu (parts : List Rx) (rx : Rx) (m : Mpdu) : Prop where
  numbered : (parts ++ [rx]).map Rx.frag = List.range (parts.length + 1)
  alike : ∀ part ∈ parts, Alike part rx
  more : ∀ part ∈ parts, hasMoreFrags part.fc = true
  final : hasMoreFrags rx.fc = false
  joined : ∃ first rest, parts ++ [rx] = first :: rest ∧ m = join first rest

structure Pending (heard : List Rx) (entry : FragmentEntry) : Prop where
  received : entry.skbList.Sublist heard
  numbered : entry.skbList.map Rx.frag = List.range entry.skbList.length
  last : entry.skbList ≠ [] → entry.lastFrag + 1 = entry.skbList.length
  alike : ∀ rx ∈ entry.skbList, ∀ other ∈ entry.skbList, Alike rx other
  keyed : ∀ rx ∈ entry.skbList, rx.seq = entry.seq ∧ rx.seqnoIdx = entry.rxQueue
  more : ∀ rx ∈ entry.skbList, hasMoreFrags rx.fc = true

def AllPending (heard : List Rx) (s : Sdata) : Prop := ∀ idx,Pending heard (s.fragments idx)

theorem Pending.of_empty (empty : entry.skbList = []) : Pending heard entry := by
  constructor
  all_goals simp [empty]

theorem Pending.grow (pending : Pending before entry) (longer : before.Sublist heard) : Pending heard entry :=
  {pending with received := pending.received.trans longer}

theorem AllPending.grow (pending : AllPending before s) (longer : before.Sublist heard) : AllPending heard s :=
  fun idx => (pending idx).grow longer

theorem AllPending.set (pending : AllPending heard s) (held : Pending heard entry) (idx : Nat) :
    AllPending heard (s.setEntry idx entry) := by
  intro other
  unfold Sdata.setEntry
  by_cases same : other = idx
  · subst same
    simpa only [Function.update_self] using held
  · simpa only [Function.update_of_ne same] using pending other

theorem Pending.with_pn (pending : Pending heard entry) (ccmp : Bool) (pn : List UInt8) :
    Pending heard {entry with ccmp := ccmp,lastPn := pn} :=
  ⟨pending.received,pending.numbered,pending.last,pending.alike,pending.keyed,pending.more⟩

theorem single_pending (heard : List Rx) (old : FragmentEntry) (first : rx.frag = 0) (more : hasMoreFrags rx.fc = true) :
    Pending (heard ++ [rx]) {old with
      skbList := [rx],
      firstFragTime := rx.jiffies,
      seq := rx.seq,
      rxQueue := rx.seqnoIdx,
      lastFrag := rx.frag,
      ccmp := false,
      extraLen := 0} := by
  constructor
  · exact List.sublist_append_right heard [rx]
  · simp [first]
  · simp [first]
  · intro _ leftIn _ rightIn
    cases mem_singleton.mp leftIn
    cases mem_singleton.mp rightIn
    exact Alike.refl rx
  · intro _ heldIn
    cases mem_singleton.mp heldIn
    exact ⟨rfl,rfl⟩
  · intro _ heldIn
    cases mem_singleton.mp heldIn
    exact more

theorem reassemble_add_pending (pending : AllPending heard s) (first : rx.frag = 0) (more : hasMoreFrags rx.fc = true) :
    AllPending (heard ++ [rx]) (reassembleAdd s rx).1 :=
  (pending.grow (List.sublist_append_left heard [rx])).set (single_pending heard _ first more) s.fragmentNext

theorem reassemble_find_pending (hz : UInt16) (rx : Rx) (rounds idx : Nat) (s : Sdata) (pending : AllPending heard s) :
    AllPending heard (reassembleFind hz rx rounds idx s).1 := by
  induction rounds generalizing idx s with
  | zero => exact pending
  | succ rounds ih =>
    simp only [reassembleFind]
    generalize (if idx = 0 then fragmentMax - 1 else idx - 1) = before
    split
    · exact ih _ _ pending
    · split
      · exact ih _ _ (pending.set (Pending.of_empty rfl) _)
      · exact pending

theorem reassemble_find_matching (found : reassembleFind hz rx rounds idx s = (after,some place)) :
    matching (after.fragments place) rx = true := by
  induction rounds generalizing idx s with
  | zero => cases found
  | succ rounds ih =>
    simp only [reassembleFind] at found
    generalize (if idx = 0 then fragmentMax - 1 else idx - 1) = before at found
    split at found
    · exact ih found
    · split at found
      · exact ih found
      · rename_i fits _
        cases found
        simpa using fits

theorem matching_cases (fits : matching entry rx = true) :
    ∃ first rest, entry.skbList = first :: rest ∧ entry.seq = rx.seq ∧ entry.rxQueue = rx.seqnoIdx ∧
      entry.lastFrag + 1 = rx.frag ∧ (rx.fc ^^^ first.fc) &&& fctlFtype = 0 ∧
      rx.skb.hdr.addr1 = first.skb.hdr.addr1 ∧ rx.skb.hdr.addr2 = first.skb.hdr.addr2 := by
  unfold matching at fits
  split at fits
  · cases fits
  · rename_i first rest queue
    simp only [Bool.and_eq_true,beq_iff_eq] at fits
    obtain ⟨⟨⟨⟨⟨seq,queueIdx⟩,number⟩,ftype⟩,receiver⟩,transmitter⟩ := fits
    exact ⟨first,rest,queue,seq,queueIdx,number,ftype,receiver,transmitter⟩

theorem and_xor_mask (a b mask : UInt16) : (a &&& mask) ^^^ (b &&& mask) = (a ^^^ b) &&& mask := by
  apply UInt16.toBitVec_inj.mp
  apply BitVec.eq_of_getLsbD_eq
  intro i _
  simp [Bool.and_xor_distrib_right]

theorem xor_mask (a b mask : UInt16) (zero : (a ^^^ b) &&& mask = 0) : a &&& mask = b &&& mask :=
  UInt16.xor_eq_zero_iff.mp ((and_xor_mask a b mask).trans zero)

section
variable (pending : Pending heard entry) (fits : matching entry rx = true)
include pending fits

theorem fitting_numbered : (entry.skbList ++ [rx]).map Rx.frag = List.range (entry.skbList.length + 1) := by
  obtain ⟨_,_,queue,-,-,number,-,-,-⟩ := matching_cases fits
  have length : rx.frag = entry.skbList.length := by
    rw [← number]
    apply pending.last
    simp [queue]
  rw [List.map_append,pending.numbered,List.range_succ,← length]
  rfl

theorem fitting_alike : ∀ part ∈ entry.skbList, Alike part rx := by
  obtain ⟨first,_,queue,seq,queueIdx,-,ftype,receiver,transmitter⟩ := matching_cases fits
  have firstIn : first ∈ entry.skbList := by simp [queue]
  have keyed := pending.keyed first firstIn
  have head : Alike first rx := by
    constructor
    · exact keyed.1.trans seq
    · exact keyed.2.trans queueIdx
    · exact receiver.symm
    · exact transmitter.symm
    · exact (xor_mask _ _ _ ftype).symm
  intro part partIn
  exact (pending.alike part partIn first firstIn).trans head

theorem fitting_pending (more : hasMoreFrags rx.fc = true) (pn : List UInt8) (extraLen : Nat) :
    Pending (heard ++ [rx]) {entry with
      lastPn := pn,
      skbList := entry.skbList ++ [rx],
      lastFrag := rx.frag,
      extraLen := extraLen} := by
  have alike := fitting_alike pending fits
  obtain ⟨_,_,queue,seq,queueIdx,_,-,-,-⟩ := matching_cases fits
  constructor
  · exact pending.received.append (List.Sublist.refl [rx])
  · simpa using fitting_numbered pending fits
  · intro _
    have length := pending.last (by simp [queue])
    simp only [List.length_append,List.length_singleton]
    omega
  · intro left leftIn right rightIn
    rcases mem_append.mp leftIn with leftOld | leftNew
    · rcases mem_append.mp rightIn with rightOld | rightNew
      · exact pending.alike left leftOld right rightOld
      · cases mem_singleton.mp rightNew
        exact alike left leftOld
    · cases mem_singleton.mp leftNew
      rcases mem_append.mp rightIn with rightOld | rightNew
      · exact (alike right rightOld).symm
      · cases mem_singleton.mp rightNew
        exact Alike.refl rx
  · intro held heldIn
    rcases mem_append.mp heldIn with old | new
    · exact pending.keyed held old
    · cases mem_singleton.mp new
      exact ⟨seq.symm,queueIdx.symm⟩
  · intro held heldIn
    rcases mem_append.mp heldIn with old | new
    · exact pending.more held old
    · cases mem_singleton.mp new
      exact more

end

theorem add_fragment_pending (pending : AllPending heard s) (fits : matching (s.fragments idx) rx = true) :
    AllPending (heard ++ [rx]) (addFragment s idx rx).1 := by
  have grown : AllPending (heard ++ [rx]) s := pending.grow (List.sublist_append_left heard [rx])
  unfold addFragment
  dsimp only
  split
  · exact grown
  split
  · exact grown
  split
  · rename_i more
    exact grown.set (fitting_pending (pending idx) fits more _ _) idx
  split
  · rename_i empty
    simp at empty
  · split <;> exact grown.set (Pending.of_empty rfl) idx

theorem add_fragment_whole (pending : AllPending heard s) (fits : matching (s.fragments idx) rx = true)
    (handed : (addFragment s idx rx).2 = .continue m) : ∃ parts, parts.Sublist heard ∧ Msdu parts rx m := by
  unfold addFragment at handed
  dsimp only at handed
  split at handed
  · cases handed
  split at handed
  · cases handed
  split at handed
  · cases handed
  rename_i final
  split at handed
  · cases handed
  rename_i first rest queue
  split at handed
  · cases handed
  cases handed
  have held := pending idx
  apply Exists.intro (s.fragments _).skbList
  constructor
  · exact held.received
  constructor
  · exact fitting_numbered held fits
  · exact fitting_alike held fits
  · exact held.more
  · simpa using final
  · exact ⟨first,rest,queue,rfl⟩

theorem defragment_pending (hz : UInt16) (rx : Rx) (pending : AllPending heard s) :
    AllPending (heard ++ [rx]) (rxHDefragment hz s rx).1 := by
  have grown : AllPending (heard ++ [rx]) s := pending.grow (List.sublist_append_left heard [rx])
  unfold rxHDefragment
  split
  · exact grown
  split
  · exact grown
  split
  · exact grown
  rename_i fragment
  split
  · exact grown
  split
  · rename_i first
    have more : hasMoreFrags rx.fc = true := by simpa [first] using fragment
    have added := reassemble_add_pending pending first more
    split
    · exact added.set ((added _).with_pn _ _) _
    · exact added
  · have searched := reassemble_find_pending hz rx fragmentMax s.fragmentNext s pending
    split
    · rename_i after found
      rw [found] at searched
      exact searched.grow (List.sublist_append_left heard [rx])
    · rename_i after place found
      rw [found] at searched
      exact add_fragment_pending searched (reassemble_find_matching found)

theorem msdu_alone (first : rx.frag = 0) (final : hasMoreFrags rx.fc = false) : Msdu [] rx rx.skb := by
  constructor
  · simp [first]
  · simp
  · simp
  · exact final
  · exact ⟨rx,[],rfl,by simp [join]⟩

theorem defragment_whole (pending : AllPending heard s) (handed : (rxHDefragment hz s rx).2 = .continue m)
    (notCtl : isCtl m.hdr.frameControl = false) (single : isMulticastEtherAddr m.hdr.addr1 = false) :
    ∃ parts, parts.Sublist heard ∧ Msdu parts rx m := by
  unfold rxHDefragment at handed
  split at handed
  · rename_i ctl
    cases handed
    exact absurd ctl (by simpa [Rx.fc] using notCtl)
  split at handed
  · rename_i multicast
    cases handed
    exact absurd multicast (by simpa using single)
  split at handed
  · rename_i alone
    cases handed
    simp only [Bool.and_eq_true,Bool.not_eq_true',beq_iff_eq] at alone
    exact ⟨[],List.nil_sublist heard,msdu_alone alone.2 alone.1⟩
  split at handed
  · cases handed
  split at handed
  · split at handed <;> cases handed
  · have searched := reassemble_find_pending hz rx fragmentMax s.fragmentNext s pending
    split at handed
    · cases handed
    · rename_i after place found
      rw [found] at searched
      exact add_fragment_whole searched (reassemble_find_matching found) handed

theorem run_cons (hz : UInt16) (rx : Rx) (rxs : List Rx) (s : Sdata) (handed : (last,m) ∈ (run hz (rx :: rxs) s).2) :
    last = rx ∧ (rxHDefragment hz s rx).2 = .continue m ∨ (last,m) ∈ (run hz rxs (rxHDefragment hz s rx).1).2 := by
  simp only [run] at handed
  split at handed
  · rename_i whole continued
    rcases List.mem_cons.mp handed with now | later
    · cases now
      exact .inl ⟨rfl,continued⟩
    · exact .inr later
  · exact .inr handed

theorem run_whole (hz : UInt16) (rxs : List Rx) (s : Sdata) (pending : AllPending heard s)
    (handed : (last,m) ∈ (run hz rxs s).2) (notCtl : isCtl m.hdr.frameControl = false)
    (single : isMulticastEtherAddr m.hdr.addr1 = false) :
    ∃ before after parts, rxs = before ++ last :: after ∧ parts.Sublist (heard ++ before) ∧ Msdu parts last m := by
  induction rxs generalizing heard s with
  | nil => cases handed
  | cons rx rxs ih =>
    rcases run_cons hz rx rxs s handed with ⟨same,continued⟩ | later
    · subst same
      obtain ⟨parts,earlier,whole⟩ := defragment_whole pending continued notCtl single
      exact ⟨[],rxs,parts,rfl,by simpa using earlier,whole⟩
    · obtain ⟨before,after,parts,place,earlier,whole⟩ := ih _ (defragment_pending hz rx pending) later
      exact ⟨rx :: before,after,parts,by rw [place,List.cons_append],by simpa using earlier,whole⟩

-- For frames to one station that are no control frames.
theorem msdu_whole (hz : UInt16) (rxs : List Rx) (s : Sdata) (idle : ∀ idx, (s.fragments idx).skbList = [])
    (handed : (last,m) ∈ (run hz rxs s).2) (notCtl : isCtl m.hdr.frameControl = false)
    (single : isMulticastEtherAddr m.hdr.addr1 = false) :
    ∃ before after parts, rxs = before ++ last :: after ∧ parts.Sublist before ∧ Msdu parts last m := by
  have pending : AllPending [] s := fun idx => Pending.of_empty (idle idx)
  simpa using run_whole hz rxs s pending handed notCtl single

def quiet : Sdata := ⟨fun _ => ⟨[],0,0,0,0,false,[],0⟩,0⟩

def sampleRx (group : UInt8) (sender : UInt8) (seqCtrl : UInt16) (moreFrags : Bool) (body : List UInt8) : Rx :=
  ⟨⟨⟨0x0008 ||| (if moreFrags then fctlMoreFrags else 0),macAddr group 0 0 0 0 1,macAddr 2 0 0 0 0 sender,macAddr 2 0 0 0 0 9,seqCtrl,
    (macAddr 0 0 0 0 0 0),0⟩,body⟩,0,false,[],0,100,true,true⟩

def interleaved : List Rx :=
  [sampleRx 0 1 0x0070 true [1,2],sampleRx 0 2 0x0070 true [3],sampleRx 0 1 0x0071 true [4],sampleRx 0 1 0x0071 true [4],
    sampleRx 0 2 0x0071 false [5],sampleRx 0 1 0x0072 false [6]]

theorem msdu_whole_sample :
    ∃ before after parts, interleaved = before ++ sampleRx 0 1 0x0072 false [6] :: after ∧ parts.Sublist before ∧
      Msdu parts (sampleRx 0 1 0x0072 false [6]) {(sampleRx 0 1 0x0070 true []).skb with body := [1,2,4,6]} :=
  msdu_whole 100 interleaved quiet (fun _ => rfl) (by decide) (by decide) (by decide)

theorem group_fragment :
    ¬ ∀ (hz : UInt16) (rxs : List Rx) (s : Sdata) (last : Rx) (m : Mpdu), (∀ idx, (s.fragments idx).skbList = []) →
      (last,m) ∈ (run hz rxs s).2 →
      ∃ before after parts, rxs = before ++ last :: after ∧ parts.Sublist before ∧ Msdu parts last m := by
  intro all
  have group := all 100 [sampleRx 1 1 0x0070 true [1]] quiet (sampleRx 1 1 0x0070 true [1]) (sampleRx 1 1 0x0070 true [1]).skb
    (fun _ => rfl) (by decide)
  obtain ⟨_,_,_,_,_,whole⟩ := group
  exact absurd whole.final (by decide)

end Mac80211.Defragment
