import Mac80211.TlRxDst
import Mac80211.TlRxSrc

namespace Mac80211.TlReport
open Loops TlRx
open TlRxDst (putNbr putNbrs nbrRpt rptSize tlRxTr2TimerFunc)
open TlRxSrc (rptTotal rptNum readNbr addNbr addNbrs)

-- The source takes two bytes of the address for the signal strength and the battery.
def values (info : TrInfo) : EthAddr × Vector UInt32 8 × UInt8 × UInt8 := (info.addr,info.rcvNum,info.rssi,info.batt)

def misread (info : TrInfo) : EthAddr × Vector UInt32 8 × UInt8 × UInt8 :=
  (info.addr,info.rcvNum,info.addr[1],info.addr[2])

-- As the destination writes them.
structure HoldsNbr (skb : Skb) (offset : Nat) (info : TrInfo) : Prop where
  addr : ∀ j (h : j < 6), skb.byte (offset + j) = info.addr[j]
  rcvNum : getRcv skb (offset + 8) = info.rcvNum

theorem HoldsNbr.transfer (holds : HoldsNbr s a info) (same : ∀ o < 40, t.byte (b + o) = s.byte (a + o)) :
    HoldsNbr t b info := by
  refine ⟨fun j small => ?_,?_⟩
  · rw [same j (by omega)]
    exact holds.addr j small
  · rw [← holds.rcvNum]
    refine getRcv_congr fun o inside => ?_
    rw [Nat.add_assoc,Nat.add_assoc]
    exact same _ (by omega)

theorem putNbr_places (rpt : Skb) (i : Nat) (info : TrInfo) :
    putNbr rpt i info = putRcv (((memcpy rpt (20 + 40 * i) info.addr.toList).store (26 + 40 * i) info.rssi).store
      (27 + 40 * i) info.batt) (28 + 40 * i) info.rcvNum := by
  have first : etherHeadLen + 6 + i * TlRxDst.nbrSize = 20 + 40 * i := by
    show 14 + 6 + i * 40 = 20 + 40 * i
    omega
  have second : 20 + 40 * i + ethAlen = 26 + 40 * i := by
    show 20 + 40 * i + 6 = 26 + 40 * i
    omega
  have third : 26 + 40 * i + 1 = 27 + 40 * i := by omega
  have fourth : 26 + 40 * i + 2 = 28 + 40 * i := by omega
  unfold putNbr
  dsimp only
  rw [first,second,third,fourth]

theorem putNbr_writes (rpt : Skb) (i : Nat) (info : TrInfo) : Writes (20 + 40 * i) (60 + 40 * i) rpt (putNbr rpt i info) := by
  rw [putNbr_places]
  have addr := memcpy_writes rpt (20 + 40 * i) info.addr.toList
  rw [Vector.length_toList] at addr
  have rssi := store_writes (memcpy rpt (20 + 40 * i) info.addr.toList) (26 + 40 * i) info.rssi
  have batt := store_writes ((memcpy rpt (20 + 40 * i) info.addr.toList).store (26 + 40 * i) info.rssi) (27 + 40 * i) info.batt
  refine (((addr.widen ?_ ?_).trans (rssi.widen ?_ ?_)).trans (batt.widen ?_ ?_)).trans
    ((putRcv_counters _ (28 + 40 * i) info.rcvNum).2.widen ?_ ?_)
  all_goals omega

theorem putNbr_holds (rpt : Skb) (i : Nat) (info : TrInfo) : HoldsNbr (putNbr rpt i info) (20 + 40 * i) info := by
  rw [putNbr_places]
  refine ⟨fun j small => ?_,?_⟩
  · rw [(putRcv_counters _ (28 + 40 * i) info.rcvNum).2 _ (by omega),Skb.byte_store,if_neg (by omega),Skb.byte_store,
      if_neg (by omega),memcpy_byte,Vector.length_toList,if_pos (by omega),Nat.add_sub_cancel_left]
    simp [List.getD_eq_getElem?_getD,small]
  · have place : 20 + 40 * i + 8 = 28 + 40 * i := by omega
    rw [place]
    exact getRcv_putRcv _ _ _

-- Only unfolded by this step: comparing packets byte by byte takes long.
attribute [local irreducible] putNbr

theorem putNbrs_cons (rpt : Skb) (i : Nat) (info : TrInfo) (rest : List TrInfo) :
    putNbrs rpt i (info :: rest) = putNbrs (putNbr rpt i info) (i + 1) rest := rfl

theorem putNbrs_holds (rpt : Skb) (i : Nat) (list : List TrInfo) :
    (∀ o < 20 + 40 * i, (putNbrs rpt i list).byte o = rpt.byte o) ∧
      ∀ j (h : j < list.length), HoldsNbr (putNbrs rpt i list) (20 + 40 * (i + j)) list[j] := by
  induction list generalizing rpt i with
  | nil => exact ⟨fun o before => rfl,fun j small => absurd small (Nat.not_lt_zero j)⟩
  | cons info rest ih =>
    obtain ⟨kept,holds⟩ := ih (putNbr rpt i info) (i + 1)
    rw [putNbrs_cons]
    refine ⟨fun o before => ?_,fun j small => ?_⟩
    · rw [kept o (by omega)]
      exact putNbr_writes rpt i info o (Or.inl before)
    · cases j with
      | zero => exact (putNbr_holds rpt i info).transfer fun o inside => kept _ (by omega)
      | succ j =>
        have next : i + (j + 1) = i + 1 + j := by omega
        rw [next]
        exact holds j (Nat.lt_of_succ_lt_succ small)

theorem putNbrs_len (rpt : Skb) (i : Nat) (list : List TrInfo) : (putNbrs rpt i list).len = rpt.len := by
  induction list generalizing rpt i with
  | nil => rfl
  | cons info rest ih =>
    rw [putNbrs_cons,ih,putNbr_places,putRcv_len]
    rfl

-- The count is what one byte holds of the length.
structure Reports (skb : Skb) (total : UInt32) (list : List TrInfo) : Prop where
  total : rptTotal skb = total
  num : rptNum skb = list.length % 256
  nbrs : list.length < 256 → ∀ j (h : j < list.length), HoldsNbr skb (6 + 40 * j) list[j]

theorem report_made (known : s.sdfInfo = some sdf)
    (sent : transmitted (tlRxTr2TimerFunc room s).kernel.log = transmitted s.kernel.log ++ [rpt]) :
    ∃ blank, rpt = nbrRpt blank sdf s.tr2List ∧ blank.len = rptSize s.tr2List.length := by
  have more : (tlRxTr2TimerFunc room s).kernel.log ≠ s.kernel.log := by
    intro same
    rw [same] at sent
    have lengths := congrArg List.length sent
    rw [List.length_append,List.length_singleton] at lengths
    omega
  unfold tlRxTr2TimerFunc at sent more
  cases list : s.tr2List with
  | nil =>
    simp only [list] at more
    exact absurd rfl more
  | cons info rest =>
    simp only [list,known] at sent more
    rcases alloc_cases room info.dev sdf.addr info.dev.devAddr (rptSize (info :: rest).length) .nbrRPT s.kernel with
      ⟨_,failed⟩ | ⟨blank,made,length,_⟩
    · rw [failed] at more
      exact absurd rfl more
    · rw [made] at sent
      simp only [devQueueXmit,Kernel.record,transmitted_append,List.append_cancel_left_eq] at sent
      cases sent
      exact ⟨blank,rfl,length⟩

theorem rptSize_eq (qlen : Nat) : rptSize qlen = (20 + 40 * qlen) % 4294967296 := rfl

theorem report_arrives (arrives : Arrives (nbrRpt blank sdf list) skb) (length : blank.len = rptSize list.length) :
    Reports skb sdf.totalNum list := by
  obtain ⟨kept,holds⟩ := putNbrs_holds ((putU32 blank 15 sdf.totalNum).store 19 (UInt8.ofNat list.length)) 0 list
  have written : nbrRpt blank sdf list = putNbrs ((putU32 blank 15 sdf.totalNum).store 19 (UInt8.ofNat list.length)) 0 list := rfl
  have arrived : skb.len + 14 = blank.len := by
    have arrived := arrives.length
    rw [written,putNbrs_len] at arrived
    exact arrived
  have content : ∀ o < skb.len, skb.byte o = (nbrRpt blank sdf list).byte (14 + o) := arrives.content
  rw [written] at content
  rw [rptSize_eq,← arrived] at length
  -- A size that covers the Ethernet header covers the count.
  refine ⟨?_,?_,fun short j small => ?_⟩
  · rw [← getU32_putU32 blank 15 sdf.totalNum]
    refine getU32_congr fun o inside => ?_
    have place : 14 + (1 + o) = 15 + o := by omega
    rw [content _ (by omega),place,kept _ (by omega)]
    exact store_writes _ _ _ _ (by omega)
  · rw [rptNum,content 5 (by omega),kept 19 (by omega),Skb.byte_store_same]
    exact UInt8.toNat_ofNat'
  · refine (holds j small).transfer fun o inside => ?_
    have place : 14 + (6 + 40 * j + o) = 20 + 40 * (0 + j) + o := by omega
    rw [content _ (by omega),place]

theorem readNbr_values (holds : HoldsNbr skb (6 + 40 * i) info) (ptr : Nat) : values (readNbr skb ptr i) = misread info := by
  have first : i * (ethAlen + 2 + 4 * numMcs) + 6 = 6 + 40 * i := by
    show i * 40 + 6 = 6 + 40 * i
    omega
  have second : i * (ethAlen + 2 + 4 * numMcs) + 7 = 6 + 40 * i + 1 := by omega
  have third : i * (ethAlen + 2 + 4 * numMcs) + 8 = 6 + 40 * i + 2 := by omega
  have addr : getAddr skb (6 + 40 * i) = info.addr := by
    ext j small
    rw [getAddr,Vector.getElem_ofFn,holds.addr j small]
  have rcvNum : getRcv skb (6 + 40 * i + ethAlen + 2) = info.rcvNum := holds.rcvNum
  simp only [readNbr,trInfoCreate,values,misread,first,second,third,addr,rcvNum,holds.addr 1 (by decide),
    holds.addr 2 (by decide)]

theorem addNbr_new (new : (readNbr skb nbrs.2 i).addr ∉ nbrs.1.map TrInfo.addr) :
    addNbr skb i nbrs = (nbrs.1 ++ [readNbr skb nbrs.2 i],nbrs.2 + 1) := by
  have missing : trInfoFindAddr nbrs.1 (readNbr skb nbrs.2 i).addr = none := by
    apply List.find?_eq_none.mpr
    intro info member same
    exact new (List.mem_map.mpr ⟨info,member,eq_of_beq same⟩)
  unfold addNbr
  dsimp only
  rw [missing]
  rfl

theorem addNbrs_values (reports : Reports skb total list) (short : list.length < 256)
    (distinct : (list.map TrInfo.addr).Nodup) (next : Nat) :
    (addNbrs skb [] next).1.map values = list.map misread := by
  unfold addNbrs
  rw [reports.num,Nat.mod_eq_of_lt short]
  have walked : (forRange 0 list.length (addNbr skb) ([],next)).1.map values = (list.take list.length).map misread := by
    refine forRange_rule (fun i (nbrs : List TrInfo × Nat) => nbrs.1.map values = (list.take i).map misread)
      (Nat.zero_le list.length) rfl ?_
    intro i nbrs _ small same
    have read := readNbr_values (reports.nbrs short i small) nbrs.2
    have addr : (readNbr skb nbrs.2 i).addr = list[i].addr := congrArg Prod.fst read
    have addrs : nbrs.1.map TrInfo.addr = (list.take i).map TrInfo.addr := by
      have firsts := congrArg (List.map Prod.fst) same
      rw [List.map_map,List.map_map] at firsts
      exact firsts
    have new : (readNbr skb nbrs.2 i).addr ∉ nbrs.1.map TrInfo.addr := by
      have apart := distinct.sublist ((List.take_sublist (i + 1) list).map TrInfo.addr)
      rw [List.take_succ_eq_append_getElem small,List.map_append,List.map_singleton,List.nodup_append] at apart
      rw [addr,addrs]
      intro member
      exact apart.2.2 _ member _ (List.mem_singleton_self _) rfl
    rw [addNbr_new new,List.map_append,same,List.map_singleton,read,List.take_succ_eq_append_getElem small,List.map_append,
      List.map_singleton]
  rw [List.take_length] at walked
  exact walked

theorem addNbrs_length (skb : Skb) (next : Nat) : (addNbrs skb [] next).1.length ≤ rptNum skb := by
  refine forRange_rule (fun i (nbrs : List TrInfo × Nat) => nbrs.1.length ≤ i) (Nat.zero_le _) (Nat.le_refl 0) ?_
  intro i _ _ _ _
  unfold addNbr
  dsimp only
  split
  · rw [trInfoInsert,List.length_append,List.length_singleton]
    omega
  · rw [trInfoUpdate_length]
    omega

theorem typeTwoTR_distinct (distinct : (s.tr2List.map TrInfo.addr).Nodup) (skb : Skb) (sdf : TrInfo) :
    ((TlRxDst.typeTwoTR skb sdf s).tr2List.map TrInfo.addr).Nodup := by
  unfold TlRxDst.typeTwoTR
  split
  · next missing => exact trInfoInsert_distinct distinct missing
  · rw [trInfoUpdate_addr]
    · exact distinct
    · exact fun info => rfl

theorem handles_distinct (distinct : (s.tr2List.map TrInfo.addr).Nodup) (handles : TlRxDst.Handles room skb s t) :
    (t.tr2List.map TrInfo.addr).Nodup := by
  cases handles with
  | invalid | late | ignored => exact distinct
  | typeOneTF kind valid number ran =>
    cases same : TlRxDst.sameTf1 skb s with
    | true =>
      obtain ⟨_,_,_,rfl⟩ := TlRxDst.typeOneTF_same ran same
      exact distinct
    | false =>
      obtain ⟨_,rfl⟩ := TlRxDst.typeOneTF_round ran same
      exact List.nodup_nil
  | typeTwoTF kind number ran =>
    cases same : TlRxDst.sameTf2 skb s with
    | true =>
      obtain ⟨_,_,rfl⟩ := TlRxDst.typeTwoTF_same ran same
      exact distinct
    | false =>
      obtain ⟨_,_,_,rfl⟩ := TlRxDst.typeTwoTF_round ran same
      exact distinct
  | typeTwoTR => exact typeTwoTR_distinct distinct skb _
  | sendTF kind ran =>
    rcases TlRxDst.sendTF_cases ran with rfl | ⟨_,_,_,_,_,_,_,_,_,rfl⟩ <;> exact distinct

theorem prepare_distinct (distinct : (s.tr2List.map TrInfo.addr).Nodup) :
    ((TlRxDst.prepare s).tr2List.map TrInfo.addr).Nodup := by
  unfold TlRxDst.prepare
  split
  · exact List.nodup_nil
  · exact distinct

theorem reached_distinct (reached : TlRxDst.Runs random met s) : (s.tr2List.map TrInfo.addr).Nodup := by
  refine reached.keeps (fun s => (s.tr2List.map TrInfo.addr).Nodup) List.nodup_nil ?_
  intro room e s t distinct _ _ ran
  cases e with
  | frame =>
    refine handles_distinct (prepare_distinct ?_) (TlRxDst.frame_cases ran)
    exact distinct
  | tf1Expires =>
    obtain ⟨_,_,_,_,_,_,rfl⟩ := TlRxDst.tf_cases (.inl rfl) ran
    exact distinct
  | tf2Expires =>
    obtain ⟨_,_,_,_,_,_,rfl⟩ := TlRxDst.tf_cases (.inr rfl) ran
    exact distinct
  | tr2Expires =>
    cases ran
    rcases TlRxDst.tr2_cases (room 0) {s with tlRxTr2Timer := _} with ⟨_,same⟩ | ⟨_,_,_,_,kept,same⟩
    · rw [same]
      exact distinct
    · rw [same]
      rcases kept with rfl | rfl
      · exact List.nodup_nil
      · exact distinct
  | mcsExpires =>
    obtain ⟨_,_,_,_,_,_,_,rfl⟩ := TlRxDst.mcs_cases ran
    exact distinct

theorem report_round_trip (reached : TlRxDst.Runs random met s) (known : s.sdfInfo = some sdf)
    (sent : transmitted (tlRxTr2TimerFunc room s).kernel.log = transmitted s.kernel.log ++ [rpt]) (arrives : Arrives rpt skb)
    (next : Nat) :
    (rptTotal skb = sdf.totalNum ∧ (addNbrs skb [] next).1.map values = s.tr2List.map values) ↔
      s.tr2List.length < 256 ∧ ∀ info ∈ s.tr2List, info.rssi = info.addr[1] ∧ info.batt = info.addr[2] := by
  obtain ⟨_,rfl,length⟩ := report_made known sent
  have reports := report_arrives arrives length
  constructor
  · rintro ⟨_,same⟩
    have lengths := congrArg List.length same
    rw [List.length_map,List.length_map] at lengths
    have most := addNbrs_length skb next
    rw [reports.num] at most
    have short : s.tr2List.length < 256 := by omega
    refine ⟨short,fun info member => ?_⟩
    rw [addNbrs_values reports short (reached_distinct reached) next] at same
    have here := List.map_inj_left.mp same info member
    have rssi := congrArg (fun v => v.2.2.1) here
    have batt := congrArg (fun v => v.2.2.2) here
    exact ⟨rssi.symm,batt.symm⟩
  · rintro ⟨short,told⟩
    refine ⟨reports.total,?_⟩
    rw [addNbrs_values reports short (reached_distinct reached) next]
    refine List.map_congr_left fun info member => ?_
    obtain ⟨rssi,batt⟩ := told info member
    rw [misread,values,rssi,batt]

namespace Sample
open TlRx.Sample

def asked : TlRxDst.State := (TlRxDst.step room (.frame (frame source [5,0,0,0,1])) (TlRxDst.initial fun _ => 0)).getD
  (TlRxDst.initial fun _ => 0)
def neighbour (a b : UInt8) : EthAddr := #v[0x00,a,b,0x10,0x20,0x30]
def told (a b : UInt8) : TlRxDst.State :=
  (TlRxDst.step room (.frame (frame (neighbour a b) (4 :: List.replicate 34 0))) asked).getD asked
def requester : TrInfo := trInfoCreate 0 source dev 1 zeroRcv 0 0

theorem asked_reached : TlRxDst.Runs (fun _ => 0) (fun _ _ => True) asked :=
  .step (e := .frame (frame source [5,0,0,0,1])) .start trivial trivial rfl

theorem told_reached (a b : UInt8) : TlRxDst.Runs (fun _ => 0) (fun _ _ => True) (told a b) :=
  .step (e := .frame (frame (neighbour a b) (4 :: List.replicate 34 0))) asked_reached trivial trivial
    (show TlRxDst.step room _ asked = some (told a b) from rfl)

theorem told_records (a b : UInt8) :
    ∃ info, (told a b).tr2List = [info] ∧ info.addr = neighbour a b ∧ info.rssi = 0 ∧ info.batt = 0 ∧
      (told a b).sdfInfo = some requester := ⟨_,rfl,rfl,rfl,rfl,rfl⟩

end Sample

theorem report_sent (list : s.tr2List ≠ []) (known : s.sdfInfo = some sdf) (short : s.tr2List.length < 256) :
    ∃ rpt, transmitted (tlRxTr2TimerFunc true s).kernel.log = transmitted s.kernel.log ++ [rpt] ∧ etherHeadLen ≤ rpt.len := by
  unfold tlRxTr2TimerFunc
  cases here : s.tr2List with
  | nil => exact absurd here list
  | cons info rest =>
    rw [here] at short
    have size := rptSize_eq (info :: rest).length
    rw [Nat.mod_eq_of_lt (by omega)] at size
    rcases alloc_cases true info.dev sdf.addr info.dev.devAddr (rptSize (info :: rest).length) .nbrRPT s.kernel with
      ⟨failed,_⟩ | ⟨blank,made,_,_⟩
    · rcases failed with full | _
      · cases full
      · omega
    · simp only [known,made]
      refine ⟨nbrRpt blank sdf (info :: rest),?_,?_⟩
      · simp only [devQueueXmit,Kernel.record,transmitted_append]
        rfl
      · rw [nbrRpt,putNbrs_len]
        show 14 ≤ blank.len
        omega

-- It takes the second and third byte of 00:1b:77:10:20:30.
theorem report_misread : ∃ s sdf rpt skb, TlRxDst.Runs (fun _ => 0) (fun _ _ => True) s ∧ s.sdfInfo = some sdf ∧
    transmitted (tlRxTr2TimerFunc true s).kernel.log = transmitted s.kernel.log ++ [rpt] ∧ Arrives rpt skb ∧
    (addNbrs skb [] 0).1.map values ≠ s.tr2List.map values := by
  obtain ⟨info,list,addr,rssi,_,known⟩ := Sample.told_records 0x1b 0x77
  have reached := Sample.told_reached 0x1b 0x77
  have short : (Sample.told 0x1b 0x77).tr2List.length < 256 := by
    rw [list]
    exact show 1 < 256 by decide
  obtain ⟨rpt,sent,long⟩ := report_sent (by rw [list]; exact List.cons_ne_nil _ _) known short
  refine ⟨_,_,rpt,skbPull rpt etherHeadLen,reached,known,sent,pull_arrives long,?_⟩
  obtain ⟨_,rfl,length⟩ := report_made known sent
  rw [addNbrs_values (report_arrives (pull_arrives long) length) short (reached_distinct reached) 0,list]
  intro same
  have here := List.map_inj_left.mp same info (List.mem_singleton_self _)
  have read := congrArg (fun v => v.2.2.1) here
  have byte : info.addr[1] = 0x1b := by rw [addr]; rfl
  rw [misread,values,byte,rssi] at read
  exact absurd read (show ¬(0x1b : UInt8) = 0 by decide)

theorem report_round_trip_sample : ∃ rpt skb,
    transmitted (tlRxTr2TimerFunc true (Sample.told 0 0)).kernel.log = transmitted (Sample.told 0 0).kernel.log ++ [rpt] ∧
    Arrives rpt skb ∧ rptTotal skb = Sample.requester.totalNum ∧
    (addNbrs skb [] 0).1.map values = (Sample.told 0 0).tr2List.map values := by
  obtain ⟨_,list,addr,rssi,batt,known⟩ := Sample.told_records 0 0
  have short : (Sample.told 0 0).tr2List.length < 256 := by
    rw [list]
    exact show 1 < 256 by decide
  obtain ⟨rpt,sent,long⟩ := report_sent (by rw [list]; exact List.cons_ne_nil _ _) known short
  refine ⟨rpt,skbPull rpt etherHeadLen,sent,pull_arrives long,
    (report_round_trip (Sample.told_reached 0 0) known sent (pull_arrives long) 0).mpr ⟨short,fun other member => ?_⟩⟩
  rw [list] at member
  cases List.mem_singleton.mp member
  rw [rssi,batt,addr]
  decide

end Mac80211.TlReport
