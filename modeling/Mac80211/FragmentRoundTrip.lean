import Mac80211.DefragmentProtected
import Mac80211.Fragment

namespace Mac80211.Defragment
open Ieee80211
open DefragmentKeys (alone defragment_alone defragment_several)
open RxReorder (timeAfter)

def newest (s : Sdata) : Nat := if s.fragmentNext = 0 then fragmentMax - 1 else s.fragmentNext - 1

structure Waiting (s : Sdata) (first : Rx) (parts : List Rx) : Prop where
  queue : (s.fragments (newest s)).skbList = first :: parts
  seq : (s.fragments (newest s)).seq = first.seq
  rxQueue : (s.fragments (newest s)).rxQueue = first.seqnoIdx
  lastFrag : (s.fragments (newest s)).lastFrag = parts.length
  ccmp : (s.fragments (newest s)).ccmp = false
  time : (s.fragments (newest s)).firstFragTime = first.jiffies

structure Later (hz : UInt16) (first : Rx) (n : Nat) (rx : Rx) : Prop where
  frag : rx.frag = n + 1
  alike : Alike first rx
  notCtl : isCtl rx.fc = false
  unicast : isMulticastEtherAddr rx.skb.hdr.addr1 = false
  linear : rx.linear = true
  expanded : rx.expanded = true
  inTime : timeAfter rx.jiffies (first.jiffies + 2 * hz.toUInt64) = false

section gather

theorem xor_masked (same : a &&& mask = b &&& mask) : (a ^^^ b) &&& mask = (0 : UInt16) := by
  rw [← and_xor_mask,same,UInt16.xor_self]

theorem Waiting.fits (waiting : Waiting s first parts) (later : Later hz first parts.length rx) :
    matching (s.fragments (newest s)) rx = true := by
  unfold matching
  rw [waiting.queue]
  dsimp only
  rw [waiting.seq,waiting.rxQueue,waiting.lastFrag,later.alike.seq,later.alike.queue,later.frag,
    xor_masked later.alike.ftype.symm,later.alike.receiver,later.alike.transmitter]
  simp only [beq_self_eq_true,Bool.and_self]

theorem Waiting.found (waiting : Waiting s first parts) (later : Later hz first parts.length rx) :
    reassembleFind hz rx fragmentMax s.fragmentNext s = (s,some (newest s)) := by
  have begins : reassembleFind hz rx fragmentMax s.fragmentNext s =
      if !matching (s.fragments (newest s)) rx then reassembleFind hz rx (fragmentMax - 1) (newest s) s
      else if timeAfter rx.jiffies ((s.fragments (newest s)).firstFragTime + 2 * hz.toUInt64) then
        reassembleFind hz rx (fragmentMax - 1) (newest s) (s.setEntry (newest s) {s.fragments (newest s) with skbList := []})
      else (s,some (newest s)) := rfl
  rw [begins,waiting.fits later,Bool.not_true,if_neg (by decide),waiting.time,later.inTime,if_neg (by decide)]

theorem Later.several (later : Later hz first n rx) : alone rx = false := by
  unfold alone
  rw [later.notCtl,later.unicast,later.frag]
  simp

section
variable (waiting : Waiting s first parts) (later : Later hz first parts.length rx)
include waiting later

theorem Waiting.reached : rxHDefragment hz s rx = addFragment s (newest s) rx := by
  rw [defragment_several hz s later.several,later.linear,Bool.not_true,if_neg (by decide),if_neg (by rw [later.frag]; omega),
    waiting.found later]

theorem Waiting.queued (more : hasMoreFrags rx.fc = true) :
    ∃ after, rxHDefragment hz s rx = (after,.queued) ∧ Waiting after first (parts ++ [rx]) := by
  rw [waiting.reached later]
  unfold addFragment
  dsimp only
  rw [waiting.ccmp,Bool.false_and,Bool.false_and,if_neg (by decide),if_neg (by decide),if_pos more]
  refine ⟨_,rfl,?_,?_,?_,?_,?_,?_⟩
  all_goals
    unfold newest Sdata.setEntry
    dsimp only
    rw [Function.update_self]
  · exact congrArg (fun queue => queue ++ [rx]) waiting.queue
  · exact waiting.seq
  · exact waiting.rxQueue
  · rw [later.frag,List.length_append,List.length_singleton]
  · exact waiting.time

theorem Waiting.joined (final : hasMoreFrags rx.fc = false) :
    ∃ after, rxHDefragment hz s rx = (after,.continue (join first (parts ++ [rx]))) := by
  rw [waiting.reached later]
  unfold addFragment
  dsimp only
  rw [waiting.ccmp,Bool.false_and,Bool.false_and,if_neg (by decide),if_neg (by decide),if_neg (by rw [final]; decide),waiting.queue,
    List.cons_append]
  dsimp only
  rw [later.expanded,Bool.not_true,Bool.and_false,if_neg (by decide)]
  exact ⟨_,rfl⟩

end

theorem waiting_first (slot : s.fragmentNext < fragmentMax) (zero : rx.frag = 0) (more : hasMoreFrags rx.fc = true)
    (notCtl : isCtl rx.fc = false) (unicast : isMulticastEtherAddr rx.skb.hdr.addr1 = false) (linear : rx.linear = true)
    (plain : hasProtected rx.fc = false) : ∃ after, rxHDefragment hz s rx = (after,.queued) ∧ Waiting after rx [] := by
  have several : alone rx = false := by
    unfold alone
    rw [notCtl,unicast,more]
    rfl
  rw [defragment_several hz s several,linear,Bool.not_true,if_neg (by decide),if_pos zero,plain,Bool.and_false,if_neg (by decide)]
  have place : newest (reassembleAdd s rx).1 = s.fragmentNext := by
    unfold newest reassembleAdd
    dsimp only
    split <;> split <;> omega
  refine ⟨_,rfl,?_,?_,?_,?_,?_,?_⟩
  all_goals
    rw [place]
    unfold reassembleAdd Sdata.setEntry
    dsimp only
    rw [Function.update_self]
  exact zero

theorem Waiting.run (waiting : Waiting s first parts) (rxs : List Rx) (some_left : rxs ≠ [])
    (each : ∀ k rx, rxs[k]? = some rx → Later hz first (parts.length + k) rx ∧ hasMoreFrags rx.fc = decide (k + 1 < rxs.length)) :
    ∃ after last, Defragment.run hz rxs s = (after,[(last,join first (parts ++ rxs))]) := by
  induction rxs generalizing s parts with
  | nil => exact absurd rfl some_left
  | cons rx rest ih =>
    obtain ⟨later,more⟩ := each 0 rx rfl
    unfold Defragment.run
    dsimp only
    cases rest with
    | nil =>
      obtain ⟨after,handed⟩ := waiting.joined later more
      rw [handed]
      exact ⟨after,rx,rfl⟩
    | cons next rest =>
      obtain ⟨_,queued,waits⟩ := waiting.queued later (by rw [more]; simp)
      rw [queued]
      obtain ⟨done,last,same⟩ := ih waits (List.cons_ne_nil _ _) (by
        intro k rx here
        obtain ⟨later,more⟩ := each (k + 1) rx here
        rw [List.length_append,List.length_singleton,Nat.add_right_comm]
        refine ⟨later,more.trans ?_⟩
        simp only [List.length_cons,Nat.add_lt_add_iff_right])
      rw [same,List.append_assoc]
      exact ⟨done,last,rfl⟩

end gather

end Mac80211.Defragment

namespace Mac80211.Fragment
open Ieee80211
open Defragment (Rx Sdata Alike Later Waiting fragmentMax)
open DefragmentKeys (seqnoIdx)
open RxReorder (timeAfter)

def fragmentHdr (h : Hdr) (k : Nat) (isLast : Bool) : Hdr :=
  {h with frameControl := markFc h.frameControl isLast,seqCtrl := h.seqCtrl ||| UInt16.ofNat (k &&& 0x000f)}

section header

theorem data_hdrlen (kind : isData fc = true) :
    hdrlen fc = (if hasA4 fc then 30 else 24) + if isDataQos fc then (if hasOrder fc then 6 else 2) else 0 := by
  exact if_pos kind

theorem hdrlen_long (kind : isData fc = true) : 24 ≤ hdrlen fc := by
  rw [data_hdrlen kind]
  split <;> omega

theorem le16_agree (agree : ∀ k < n, a.getD k 0 = b.getD k 0) (inside : i + 1 < n) : le16 a i = le16 b i := by
  unfold le16
  rw [agree i (by omega),agree (i + 1) inside]

theorem addrAt_agree (agree : ∀ k < n, a.getD k 0 = b.getD k 0) (inside : i + 5 < n) : addrAt a i = addrAt b i := by
  unfold addrAt
  rw [agree i (by omega),agree (i + 1) (by omega),agree (i + 2) (by omega),agree (i + 3) (by omega),agree (i + 4) (by omega),
    agree (i + 5) inside]

theorem header_agree (kind : isData (le16 b 0) = true) (agree : ∀ k < hdrlen (le16 b 0), a.getD k 0 = b.getD k 0) :
    header a = header b := by
  have long := hdrlen_long kind
  have length := data_hdrlen kind
  have fc : le16 a 0 = le16 b 0 := le16_agree agree (by omega)
  unfold header
  dsimp only
  rw [fc,addrAt_agree agree (by omega : 4 + 5 < _),addrAt_agree agree (by omega : 10 + 5 < _),addrAt_agree agree (by omega : 16 + 5 < _),
    le16_agree agree (by omega : 22 + 1 < _)]
  have fourth : (if hasA4 (le16 b 0) then addrAt a 24 else macAddr 0 0 0 0 0 0) = if hasA4 (le16 b 0) then addrAt b 24 else macAddr 0 0 0 0 0 0 := by
    split
    · rename_i a4
      rw [if_pos a4] at length
      exact addrAt_agree agree (by omega)
    · rfl
  have qos : (if isDataQos (le16 b 0) then le16 a (if hasA4 (le16 b 0) then 30 else 24) else 0) =
      if isDataQos (le16 b 0) then le16 b (if hasA4 (le16 b 0) then 30 else 24) else 0 := by
    split
    · rename_i control
      rw [if_pos control] at length
      refine le16_agree agree ?_
      generalize (if hasA4 (le16 b 0) then 30 else 24) = behind at length ⊢
      split at length <;> omega
    · rfl
  rw [fourth,qos]

theorem header_take (kind : isData (le16 data 0) = true) (long : hdrlen (le16 data 0) ≤ data.length) (part : List UInt8) :
    header (data.take (hdrlen (le16 data 0)) ++ part) = header data := by
  refine header_agree kind fun k inside => ?_
  rw [List.getD_eq_getElem?_getD,List.getElem?_append_left (by rw [List.length_take]; omega),List.getElem?_take_of_lt inside,
    ← List.getD_eq_getElem?_getD]

section
variable (skb : TxSkb) (k : Nat) (isLast : Bool)

theorem mark_header (long : 24 ≤ skb.data.length) :
    header (markFragment skb k isLast).data = fragmentHdr (header skb.data) k isLast := by
  generalize frame : putLe16 skb.data 0 (markFc (le16 skb.data 0) isLast) = data
  have length : data.length = skb.data.length := by rw [← frame,put_length]
  have fc : le16 data 0 = markFc (le16 skb.data 0) isLast := by
    rw [← frame]
    exact le16_put _ (by omega)
  have field : ∀ j, 1 < j → le16 data j = le16 skb.data j := by
    intro j behind
    rw [← frame]
    exact le16_other _ _ (.inr behind)
  have addr : ∀ j, 1 < j → addrAt data j = addrAt skb.data j := by
    intro j behind
    rw [← frame]
    exact addrAt_other _ _ (.inr behind)
  have marked : (markFragment skb k isLast).data = putLe16 data 22 (le16 data 22 ||| UInt16.ofNat (k &&& 0x000f)) := by
    rw [← frame]
    rfl
  have behind : 23 < if hasA4 (le16 skb.data 0) then 30 else 24 := by split <;> decide
  rw [marked]
  unfold header fragmentHdr
  dsimp only
  rw [le16_other data _ (by omega : 0 + 1 < 22 ∨ 22 + 1 < 0),le16_put _ (by omega),addrAt_other data _ (by omega : 4 + 5 < 22 ∨ 22 + 1 < 4),
    addrAt_other data _ (by omega : 10 + 5 < 22 ∨ 22 + 1 < 10),addrAt_other data _ (by omega : 16 + 5 < 22 ∨ 22 + 1 < 16),
    addrAt_other data _ (by omega : 24 + 5 < 22 ∨ 22 + 1 < 24),fc,mark_a4,mark_qos,le16_other data _ (.inr behind),
    field 22 (by decide),field _ (by omega),addr 4 (by decide),addr 10 (by decide),addr 16 (by decide),addr 24 (by decide)]

theorem mark_length : (markFragment skb k isLast).data.length = skb.data.length :=
  (put_length ..).trans (put_length ..)

theorem mark_drop (behind : 24 ≤ n) : (markFragment skb k isLast).data.drop n = skb.data.drop n :=
  (put_drop _ _ (by omega)).trans (put_drop _ _ (by omega))

end

end header

section walk

theorem markFragments_get (n : Nat) (skbs : List TxSkb) (k : Nat) :
    (markFragments n skbs)[k]? = (skbs[k]?).map fun f => markFragment f (n + k) (decide (k + 1 = skbs.length)) := by
  induction skbs generalizing n k with
  | nil => rfl
  | cons skb rest ih =>
    unfold markFragments
    cases k with
    | zero =>
      cases rest <;> rfl
    | succ k =>
      rw [List.getElem?_cons_succ,List.getElem?_cons_succ,ih,Nat.add_right_comm]
      rw [List.length_cons,Nat.add_assoc n k 1]
      simp only [Nat.add_right_cancel_iff]

theorem markFragments_length (n : Nat) (skbs : List TxSkb) : (markFragments n skbs).length = skbs.length := by
  induction skbs generalizing n with
  | nil => rfl
  | cons skb rest ih => exact congrArg Nat.succ (ih (n + 1))

theorem markFragments_drop (skbs : List TxSkb) (behind : 24 ≤ m) (n : Nat) :
    (markFragments n skbs).map (fun f => f.data.drop m) = skbs.map fun f => f.data.drop m := by
  induction skbs generalizing n with
  | nil => rfl
  | cons skb rest ih =>
    unfold markFragments
    rw [List.map_cons,List.map_cons,ih,mark_drop skb n _ behind]

end walk

-- A data frame to one station that is not encrypted and is no fragment itself.
structure Plain (data : List UInt8) : Prop where
  kind : isData (le16 data 0) = true
  unicast : isMulticastEtherAddr (addrAt data 4) = false
  plain : hasProtected (le16 data 0) = false
  number : le16 data 22 &&& 0x000f = 0

-- Cut by mac80211 into at most 16 fragments, with memory for them.
structure Cuts (room : Nat) (tx : TxData) : Prop where
  asked : tx.skb.info.dontfrag = false
  software : tx.setFragThreshold = false
  single : tx.skb.info.ampdu = false
  long : tx.fragThreshold < tx.skb.data.length + fcsLen
  positive : hdrlen (le16 tx.skb.data 0) + fcsLen < tx.fragThreshold
  few : tx.skb.data.length ≤ hdrlen (le16 tx.skb.data 0) + (tx.fragThreshold - hdrlen (le16 tx.skb.data 0) - fcsLen) * 16
  memory : tx.skb.data.length ≤ hdrlen (le16 tx.skb.data 0) + (tx.fragThreshold - hdrlen (le16 tx.skb.data 0) - fcsLen) * (room + 1)

structure Heard (hz : UInt16) (airs : List Air) (n : Nat) : Prop where
  each : airs.length = n
  memory : ∀ air ∈ airs, air.linear = true ∧ air.expanded = true
  inTime : ∀ first ∈ airs.head?, ∀ air ∈ airs, timeAfter air.jiffies (first.jiffies + 2 * hz.toUInt64) = false

def fragNumber (data : List UInt8) : Nat := (le16 data 22 &&& 0x000f).toNat
def seqNumber (data : List UInt8) : Nat := ((le16 data 22 &&& 0xfff0) >>> 4).toNat

structure Fragments (data : List UInt8) (threshold : Nat) (skbs : List TxSkb) : Prop where
  several : 1 < skbs.length
  few : skbs.length ≤ 16
  short : ∀ f ∈ skbs, f.data.length + fcsLen ≤ threshold
  headers : ∀ k f, skbs[k]? = some f → header f.data = fragmentHdr (header data) k (decide (k + 1 = skbs.length))
  payload : (skbs.map fun f => f.data.drop (hdrlen (le16 data 0))).flatten = data.drop (hdrlen (le16 data 0))

section fragments
variable {f g : TxSkb}
  {k : Nat}

theorem fragment_fragments (kind : isData (le16 tx.skb.data 0) = true) (cuts : Cuts room tx) :
    ∃ skbs, txHFragment room tx = .continue skbs ∧ Fragments tx.skb.data tx.fragThreshold skbs := by
  have positive := cuts.positive
  have long := cuts.long
  have header := hdrlen_long kind
  obtain ⟨first,rest,same,left,pieces⟩ := fragment_pieces tx.fragThreshold room (by omega) positive long cuts.memory
  refine ⟨markFragments 0 (first :: rest),?_,?_,?_,?_,?_,?_⟩
  · unfold txHFragment
    dsimp only
    rw [cuts.asked,cuts.software,cuts.single,if_neg (by decide),if_neg (by decide),if_neg (by decide),if_neg (by omega),same]
  · rw [markFragments_length,List.length_cons]
    have some_left := List.length_pos_iff.mpr left
    omega
  · rw [markFragments_length]
    refine pieces.few 16 ?_
    have few := cuts.few
    rw [List.length_drop]
    omega
  · intro f member
    obtain ⟨k,here⟩ := List.getElem?_of_mem member
    rw [markFragments_get] at here
    obtain ⟨g,found,rfl⟩ := Option.map_eq_some_iff.mp here
    obtain ⟨_,cut,_⟩ := pieces.each g (List.mem_of_getElem? found)
    rw [mark_length,cut,List.length_append,List.length_take]
    omega
  · intro k f here
    rw [markFragments_get] at here
    obtain ⟨g,found,rfl⟩ := Option.map_eq_some_iff.mp here
    obtain ⟨_,cut,_⟩ := pieces.each g (List.mem_of_getElem? found)
    rw [markFragments_length,Nat.zero_add,mark_header,cut,header_take kind (by omega)]
    rw [cut,List.length_append,List.length_take]
    omega
  · rw [markFragments_drop _ header]
    exact pieces.whole

theorem Fragments.numbered (fragments : Fragments data threshold skbs) (plain : Plain data) (here : skbs[k]? = some f) :
    fragNumber f.data = k ∧ seqNumber f.data = seqNumber data ∧ hasMoreFrags (le16 f.data 0) = decide (k + 1 < skbs.length) := by
  have less : k < skbs.length := (List.getElem?_eq_some_iff.mp here).1
  have few := fragments.few
  have same := fragments.headers k f here
  have seqCtrl : le16 f.data 22 = le16 data 22 ||| UInt16.ofNat (k &&& 0x000f) := congrArg Hdr.seqCtrl same
  have fc : le16 f.data 0 = markFc (le16 data 0) (decide (k + 1 = skbs.length)) := congrArg Hdr.frameControl same
  refine ⟨?_,?_,?_⟩
  · unfold fragNumber
    rw [seqCtrl]
    exact fragment_number _ plain.number (by omega)
  · unfold seqNumber
    rw [seqCtrl,fragment_seq]
  · rw [fc,mark_more,← decide_not]
    exact decide_eq_decide.mpr (by omega)

theorem receive_body (same : header f.data = fragmentHdr (header data) k isLast) (air : Air) :
    (receive f.data air).skb.body = f.data.drop (hdrlen (le16 data 0)) := by
  have fc : le16 f.data 0 = markFc (le16 data 0) isLast := congrArg Hdr.frameControl same
  unfold receive mpdu
  rw [fc,mark_hdrlen]

theorem receive_alike (first : header f.data = fragmentHdr (header data) j one) (second : header g.data = fragmentHdr (header data) k two)
    (here there : Air) : Alike (receive f.data here) (receive g.data there) := by
  have queue : ∀ n isLast, seqnoIdx (fragmentHdr (header data) n isLast) = seqnoIdx (header data) := by
    intro n isLast
    unfold seqnoIdx qosTid fragmentHdr
    rw [mark_qos]
  have seq : ∀ n isLast, ((fragmentHdr (header data) n isLast).seqCtrl &&& 0xfff0) = (header data).seqCtrl &&& 0xfff0 :=
    fun n _ => fragment_seq _ n
  have ftype : ∀ n isLast, (fragmentHdr (header data) n isLast).frameControl &&& fctlFtype = (header data).frameControl &&& fctlFtype :=
    fun _ isLast => mark_mask _ isLast (by decide) (by decide)
  unfold receive mpdu
  constructor
  · unfold Defragment.Rx.seq
    rw [first,second,seq,seq]
  · rw [first,second,queue,queue]
  · rw [first,second]
    rfl
  · rw [first,second]
    rfl
  · unfold Defragment.Rx.fc
    rw [first,second,ftype,ftype]

theorem data_not_ctl (kind : isData fc = true) : isCtl fc = false := by
  unfold isCtl
  rw [beq_iff_eq.mp kind]
  rfl

section
variable (fragments : Fragments data threshold skbs) (plain : Plain data)
include fragments plain

theorem Fragments.not_ctl (here : skbs[k]? = some f) (air : Air) : isCtl (receive f.data air).fc = false := by
  have fc : le16 f.data 0 = markFc (le16 data 0) (decide (k + 1 = skbs.length)) := congrArg Hdr.frameControl (fragments.headers k f here)
  refine Eq.trans ?_ (data_not_ctl plain.kind)
  rw [← mark_ctl (le16 data 0) (decide (k + 1 = skbs.length)),← fc]
  rfl

theorem Fragments.unicast (here : skbs[k]? = some f) (air : Air) :
    isMulticastEtherAddr (receive f.data air).skb.hdr.addr1 = false := by
  have receiver : addrAt f.data 4 = addrAt data 4 := congrArg Hdr.addr1 (fragments.headers k f here)
  refine Eq.trans ?_ plain.unicast
  rw [← receiver]
  rfl

theorem Fragments.later (heard : Heard hz airs skbs.length)
    (firstHere : skbs[0]? = some f) (firstAir : airs[0]? = some start) (here : skbs[k + 1]? = some g) (airHere : airs[k + 1]? = some air) :
    Later hz (receive f.data start) k (receive g.data air) where
  frag := (fragments.numbered plain here).1
  alike := receive_alike (fragments.headers 0 f firstHere) (fragments.headers (k + 1) g here) start air
  notCtl := fragments.not_ctl plain here air
  unicast := fragments.unicast plain here air
  linear := (heard.memory air (List.mem_of_getElem? airHere)).1
  expanded := (heard.memory air (List.mem_of_getElem? airHere)).2
  inTime := heard.inTime start (by rw [List.head?_eq_getElem?]; exact firstAir) air (List.mem_of_getElem? airHere)

end

theorem bodies_flatten (rest : List TxSkb) (airs : List Air) (each : airs.length = rest.length)
    (own : ∀ f ∈ rest, ∃ k isLast, header f.data = fragmentHdr (header data) k isLast) :
    (List.zipWith (fun f air => receive f.data air) rest airs).flatMap (fun rx => rx.skb.body) =
      (rest.map fun f => f.data.drop (hdrlen (le16 data 0))).flatten := by
  induction rest generalizing airs with
  | nil => rfl
  | cons f rest ih =>
    cases airs with
    | nil => cases each
    | cons air airs =>
      obtain ⟨k,_,same⟩ := own f (List.mem_cons_self ..)
      rw [List.zipWith_cons_cons,List.flatMap_cons,List.map_cons,List.flatten_cons,receive_body same,
        ih airs (Nat.succ.inj each) fun g member => own g (List.mem_cons_of_mem _ member)]

theorem Fragments.gathered (fragments : Fragments data threshold skbs) (plain : Plain data) (heard : Heard hz airs skbs.length)
    (slot : s.fragmentNext < fragmentMax) :
    ∃ after last m, Defragment.run hz (List.zipWith (fun f air => receive f.data air) skbs airs) s = (after,[(last,m)]) ∧
      m.hdr = fragmentHdr (header data) 0 false ∧ m.body = data.drop (hdrlen (le16 data 0)) := by
  have several := fragments.several
  have whole := fragments.payload
  have each := heard.each
  cases skbs with
  | nil => cases several
  | cons f rest =>
  cases airs with
  | nil => cases each
  | cons start airs =>
    have same : header f.data = fragmentHdr (header data) 0 false := by
      have same := fragments.headers 0 f rfl
      rwa [decide_eq_false (by omega)] at same
    obtain ⟨number,-,more⟩ := fragments.numbered plain (k := 0) (f := f) rfl
    have fc : le16 f.data 0 = markFc (le16 data 0) false := congrArg Hdr.frameControl same
    have unprotected : hasProtected (receive f.data start).fc = false := by
      refine Eq.trans ?_ plain.plain
      rw [← mark_protected (le16 data 0) false,← fc]
      rfl
    have begins : ∃ after, Defragment.rxHDefragment hz s (receive f.data start) = (after,.queued) ∧ Waiting after (receive f.data start) [] :=
      Defragment.waiting_first slot number (more.trans (decide_eq_true several)) (fragments.not_ctl plain (k := 0) rfl start)
        (fragments.unicast plain (k := 0) rfl start) (heard.memory start (List.mem_cons_self ..)).1 unprotected
    obtain ⟨_,queued,waits⟩ := begins
    have length : (List.zipWith (fun f air => receive f.data air) rest airs).length = rest.length := by
      rw [List.length_zipWith,Nat.succ.inj each,Nat.min_self]
    obtain ⟨done,last,gathered⟩ := waits.run (List.zipWith (fun f air => receive f.data air) rest airs) (by
        rw [← List.length_pos_iff,length]
        rw [List.length_cons] at several
        omega)
      (by
        intro k _ here
        obtain ⟨g,_,found,airFound,rfl⟩ := List.getElem?_zipWith_eq_some.mp here
        have later := fragments.later plain heard rfl rfl (k := k) found airFound
        refine ⟨by rwa [List.length_nil,Nat.zero_add],?_⟩
        have more := (fragments.numbered plain (k := k + 1) (f := g) found).2.2
        refine Eq.trans more (decide_eq_decide.mpr ?_)
        rw [List.length_cons]
        omega)
    rw [List.zipWith_cons_cons]
    unfold Defragment.run
    dsimp only
    rw [queued,gathered]
    refine ⟨done,last,_,rfl,same,?_⟩
    unfold Defragment.join
    rw [List.nil_append,receive_body same,bodies_flatten rest airs (Nat.succ.inj each),← whole,List.map_cons,List.flatten_cons]
    intro g member
    obtain ⟨k,found⟩ := List.getElem?_of_mem member
    exact ⟨k + 1,_,fragments.headers (k + 1) g found⟩

end fragments

-- The frame is no fragment itself, and a receiver has all fragments in time.
theorem fragments_round_trip (room : Nat) (tx : TxData) (plain : Plain tx.skb.data) (cuts : Cuts room tx) :
    ∃ skbs, txHFragment room tx = .continue skbs ∧ skbs.length ≤ 16 ∧
      (∀ f ∈ skbs, f.data.length + fcsLen ≤ tx.fragThreshold) ∧
      (∀ k f, skbs[k]? = some f → fragNumber f.data = k ∧ seqNumber f.data = seqNumber tx.skb.data ∧
        hasMoreFrags (le16 f.data 0) = decide (k + 1 < skbs.length)) ∧
      ∀ hz s airs, s.fragmentNext < fragmentMax → Heard hz airs skbs.length →
        ∃ after last m, Defragment.run hz (List.zipWith (fun f air => receive f.data air) skbs airs) s = (after,[(last,m)]) ∧
          m.hdr.addr1 = addrAt tx.skb.data 4 ∧ m.hdr.addr2 = addrAt tx.skb.data 10 ∧ m.hdr.addr3 = addrAt tx.skb.data 16 ∧
          (hasA4 (le16 tx.skb.data 0) = true → m.hdr.addr4 = addrAt tx.skb.data 24) ∧
          m.body = tx.skb.data.drop (hdrlen (le16 tx.skb.data 0)) := by
  obtain ⟨skbs,same,fragments⟩ := fragment_fragments plain.kind cuts
  refine ⟨skbs,same,fragments.few,fragments.short,fun k f here => fragments.numbered plain here,?_⟩
  intro _ s _ slot heard
  obtain ⟨after,last,m,handed,hdr,body⟩ := fragments.gathered plain heard slot
  refine ⟨after,last,m,handed,?_,?_,?_,?_,body⟩
  · rw [hdr]
    rfl
  · rw [hdr]
    rfl
  · rw [hdr]
    rfl
  · intro a4
    rw [hdr]
    exact if_pos a4

def sampleTx (seq : UInt8) : TxData where
  skb := ⟨[8,0,0,0,2,0,0,0,0,1,2,0,0,0,0,2,2,0,0,0,0,3,seq,0] ++ List.replicate 300 0,⟨false,false,false,true,false,false,fun _ => 0⟩,0,0⟩
  fragThreshold := 256
  setFragThreshold := false

theorem sample_cuts (seq : UInt8) : Cuts 15 (sampleTx seq) := by
  have length : (sampleTx seq).skb.data.length = 324 := by
    unfold sampleTx
    rw [List.length_append,List.length_replicate]
    rfl
  have fc : le16 (sampleTx seq).skb.data 0 = 0x0008 := rfl
  have header : hdrlen (le16 (sampleTx seq).skb.data 0) = 24 := by
    rw [fc]
    decide
  have threshold : (sampleTx seq).fragThreshold = 256 := rfl
  refine ⟨rfl,rfl,rfl,?_,?_,?_,?_⟩
  all_goals
    rw [threshold]
    first
      | rw [length,header]
      | rw [length]
      | rw [header]
    decide

def sampleAir : Air := ⟨false,[],0,100,true,true⟩

theorem fragments_round_trip_sample : ∃ skbs after last m, txHFragment 15 (sampleTx 0x70) = .continue skbs ∧ skbs.length ≤ 16 ∧
    (∀ f ∈ skbs, f.data.length + fcsLen ≤ (sampleTx 0x70).fragThreshold) ∧
    Defragment.run 100 (List.zipWith (fun f air => receive f.data air) skbs (List.replicate skbs.length sampleAir)) Defragment.quiet =
      (after,[(last,m)]) ∧ m.body = List.replicate 300 0 := by
  obtain ⟨skbs,same,few,short,-,received⟩ := fragments_round_trip 15 (sampleTx 0x70) ⟨rfl,rfl,rfl,rfl⟩ (sample_cuts 0x70)
  have heard : Heard 100 (List.replicate skbs.length sampleAir) skbs.length := by
    refine ⟨List.length_replicate,fun air member => ?_,fun first head air member => ?_⟩
    · rw [List.eq_of_mem_replicate member]
      exact ⟨rfl,rfl⟩
    · rw [List.eq_of_mem_replicate member,List.eq_of_mem_replicate (List.mem_of_mem_head? head)]
      rfl
  obtain ⟨after,last,m,handed,-,-,-,-,body⟩ := received 100 Defragment.quiet _ (by decide) heard
  exact ⟨skbs,after,last,m,same,few,short,handed,body⟩

theorem fragments_injected : isData (le16 (sampleTx 0x71).skb.data 0) = true ∧ isMulticastEtherAddr (addrAt (sampleTx 0x71).skb.data 4) = false ∧
    Cuts 15 (sampleTx 0x71) ∧
    ∃ skbs, txHFragment 15 (sampleTx 0x71) = .continue skbs ∧ ¬∀ k f, skbs[k]? = some f → fragNumber f.data = k := by
  have kind : isData (le16 (sampleTx 0x71).skb.data 0) = true := rfl
  refine ⟨kind,rfl,sample_cuts 0x71,?_⟩
  obtain ⟨skbs,same,fragments⟩ := fragment_fragments kind (sample_cuts 0x71)
  refine ⟨skbs,same,fun numbered => ?_⟩
  have several := fragments.several
  cases skbs with
  | nil => cases several
  | cons f rest =>
    have seqCtrl : le16 f.data 22 = le16 (sampleTx 0x71).skb.data 22 ||| UInt16.ofNat (0 &&& 0x000f) :=
      congrArg Hdr.seqCtrl (fragments.headers 0 f rfl)
    have number : fragNumber f.data = 1 := by
      unfold fragNumber
      rw [seqCtrl]
      rfl
    have zero := numbered 0 f rfl
    rw [number] at zero
    cases zero

end Mac80211.Fragment
