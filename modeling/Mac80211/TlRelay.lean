import Mac80211.Guarded
import Mac80211.TlPolling

namespace Mac80211.TlRx
open Guarded

def mulStep (strict : Bool) (bits a b : Nat) : Run Nat := act strict [(a * b,2 ^ bits)] (a * b % 2 ^ bits)

def divStep (a b : Nat) : Run Nat := if b = 0 then .fault else .done (a / b)

def scaled (strict : Bool) (bits k m c : Nat) : Run Nat :=
  (mulStep strict bits k m).bind fun result =>
  (mulStep strict bits result m).bind fun result =>
  (mulStep strict bits result c).bind fun result =>
  mulStep strict bits result 1000000

def nToK (strict : Bool) (bits : Nat) (n : UInt8) (total rcv : UInt32) : Run UInt8 :=
  (scaled strict bits n.toNat rcv.toNat 80).bind fun result =>
  (divStep result total.toNat).bind fun result =>
  (divStep result total.toNat).bind fun result =>
  (divStep result 100).bind fun result =>
  (divStep result 1000000).bind fun result =>
  .done (UInt8.ofNat result)

def kToN (strict : Bool) (bits : Nat) (k : UInt8) (total rcv : UInt32) : Run UInt8 :=
  (scaled strict bits k.toNat total.toNat 100).bind fun result =>
  (divStep result rcv.toNat).bind fun result =>
  (divStep result rcv.toNat).bind fun result =>
  (divStep result 80).bind fun result =>
  let result := if result % 1000000 ≠ 0 then (result + 1000000) % 2 ^ bits else result
  (divStep result 1000000).bind fun result =>
  .done (UInt8.ofNat (if result < 255 then result else 255))

def trInfoListPrDof (strict : Bool) (bits : Nat) (par : TrParam) (list : List TrInfo) (addr : EthAddr) : Run UInt8 :=
  match trInfoFindAddr list addr with
  | none => .done par.dataK
  | some info =>
    (nToK strict bits par.dataN info.totalNum (firstRcv info.rcvNum)).bind fun srcK =>
      if par.dataK > srcK then act strict [(srcK.toNat,par.dataK.toNat + 1)] (par.dataK - srcK) else .done 0

def maxCloutFrom (strict : Bool) (bits : Nat) (par : TrParam) (list : List TrInfo) : List TrInfo → UInt8 → Run UInt8
  | [],maxClout => .done maxClout
  | nbr :: rest,maxClout =>
    (trInfoListPrDof strict bits par list nbr.addr).bind fun dof =>
    (kToN strict bits dof nbr.totalNum (firstRcv nbr.rcvNum)).bind fun nbrClout =>
    maxCloutFrom strict bits par list rest (if maxClout < nbrClout then nbrClout else maxClout)

def trInfoMaxClout (strict : Bool) (bits : Nat) (par : TrParam) (list : List TrInfo) (info : TrInfo) : Run UInt8 :=
  maxCloutFrom strict bits par list info.nbrList 0

-- A node at two hops, its three relays of least clout and what it lacks.
structure DstInfo where
  addr : EthAddr
  raddr1 : EthAddr
  raddr2 : EthAddr
  raddr3 : EthAddr
  minClout1 : UInt8
  minClout2 : UInt8
  minClout3 : UInt8
  prDof : UInt8

def dstInfoRank (raddr : EthAddr) (clout : UInt8) (dst : DstInfo) : DstInfo :=
  if clout ≤ dst.minClout3 then
    if clout ≤ dst.minClout2 then
      if clout ≤ dst.minClout1 then {dst with
        raddr3 := dst.raddr2
        minClout3 := dst.minClout2
        raddr2 := dst.raddr1
        minClout2 := dst.minClout1
        raddr1 := raddr
        minClout1 := clout}
      else {dst with raddr3 := dst.raddr2,minClout3 := dst.minClout2,raddr2 := raddr,minClout2 := clout}
    else {dst with raddr3 := raddr,minClout3 := clout}
  else dst

def getMinDofAt (strict : Bool) (bits : Nat) : List TrInfo → DstInfo → Run DstInfo
  | [],dst => .done dst
  | info :: rest,dst =>
    match trInfoFindAddr info.nbrList dst.addr with
    | none => getMinDofAt strict bits rest dst
    | some nbr =>
      (kToN strict bits dst.prDof nbr.totalNum (firstRcv nbr.rcvNum)).bind fun clout =>
        getMinDofAt strict bits rest (dstInfoRank info.addr clout dst)

def dstInfoListGetMinDof (strict : Bool) (bits : Nat) (list : List TrInfo) : List DstInfo → Run (List DstInfo)
  | [] => .done []
  | dst :: rest =>
    (if dst.prDof ≠ 0 then getMinDofAt strict bits list dst else .done dst).bind fun dst =>
    (dstInfoListGetMinDof strict bits list rest).bind fun rest => .done (dst :: rest)

def NToKFits (bits : Nat) (n : UInt8) (total rcv : UInt32) : Prop :=
  total ≠ 0 ∧ n.toNat * rcv.toNat * rcv.toNat * 80 * 1000000 < 2 ^ bits

def KToNFits (bits : Nat) (k : UInt8) (total rcv : UInt32) : Prop :=
  rcv ≠ 0 ∧ k.toNat * total.toNat * total.toNat * 100 * 1000000 < 2 ^ bits

def credit (n : UInt8) (total rcv : UInt32) : UInt8 :=
  UInt8.ofNat (n.toNat * rcv.toNat * rcv.toNat * 80 * 1000000 / total.toNat / total.toNat / 100 / 1000000)

def lacks (par : TrParam) (list : List TrInfo) (addr : EthAddr) : UInt8 :=
  match trInfoFindAddr list addr with
  | none => par.dataK
  | some info =>
    let srcK := credit par.dataN info.totalNum (firstRcv info.rcvNum)
    if par.dataK > srcK then par.dataK - srcK else 0

def clout (bits : Nat) (k : UInt8) (total rcv : UInt32) : UInt8 :=
  let result := k.toNat * total.toNat * total.toNat * 100 * 1000000 / rcv.toNat / rcv.toNat / 80
  let result := if result % 1000000 ≠ 0 then (result + 1000000) % 2 ^ bits else result
  UInt8.ofNat (if result / 1000000 < 255 then result / 1000000 else 255)

structure CloutFits (bits : Nat) (par : TrParam) (list : List TrInfo) (nbr : TrInfo) : Prop where
  heard : ∀ info, trInfoFindAddr list nbr.addr = some info → NToKFits bits par.dataN info.totalNum (firstRcv info.rcvNum)
  clout : KToNFits bits (lacks par list nbr.addr) nbr.totalNum (firstRcv nbr.rcvNum)

def RankFits (bits : Nat) (list : List TrInfo) (addr : EthAddr) (k : UInt8) : Prop :=
  ∀ info ∈ list, ∀ nbr, trInfoFindAddr info.nbrList addr = some nbr → KToNFits bits k nbr.totalNum (firstRcv nbr.rcvNum)

def DofFits (bits : Nat) (list : List TrInfo) (dst : DstInfo) : Prop :=
  dst.prDof ≠ 0 → RankFits bits list dst.addr dst.prDof

theorem mulStep_done (fits : a * b < 2 ^ bits) (strict : Bool) : mulStep strict bits a b = .done (a * b) := by
  rw [mulStep,Nat.mod_eq_of_lt fits]
  apply act_inside
  intro u member
  cases List.mem_singleton.mp member
  exact fits

theorem mulStep_fault (wraps : 2 ^ bits ≤ a * b) : mulStep true bits a b = .fault :=
  act_outside (List.mem_singleton_self (a * b,2 ^ bits)) wraps _

theorem divStep_done (positive : b ≠ 0) (a : Nat) : divStep a b = .done (a / b) := if_neg positive

theorem square_le (k m : Nat) : k * m ≤ k * m * m := by
  cases m with
  | zero => exact Nat.le_refl _
  | succ m => exact Nat.le_mul_of_pos_right _ (Nat.succ_pos m)

theorem scaled_done (positive : 0 < c) (fits : k * m * m * c * 1000000 < 2 ^ bits) (strict : Bool) :
    scaled strict bits k m c = .done (k * m * m * c * 1000000) := by
  have third : k * m * m * c < 2 ^ bits := Nat.lt_of_le_of_lt (Nat.le_mul_of_pos_right _ (by decide)) fits
  have second : k * m * m < 2 ^ bits := Nat.lt_of_le_of_lt (Nat.le_mul_of_pos_right _ positive) third
  have first : k * m < 2 ^ bits := Nat.lt_of_le_of_lt (square_le k m) second
  simp only [scaled,mulStep_done first,mulStep_done second,mulStep_done third,mulStep_done fits,Run.done_bind]

theorem scaled_fault (wraps : 2 ^ bits ≤ k * m * m * c * 1000000) : scaled true bits k m c = .fault := by
  unfold scaled
  rcases Nat.lt_or_ge (k * m) (2 ^ bits) with first | first
  · rw [mulStep_done first,Run.done_bind]
    rcases Nat.lt_or_ge (k * m * m) (2 ^ bits) with second | second
    · rw [mulStep_done second,Run.done_bind]
      rcases Nat.lt_or_ge (k * m * m * c) (2 ^ bits) with third | third
      · rw [mulStep_done third,Run.done_bind]
        exact mulStep_fault wraps
      · rw [mulStep_fault third,Run.fault_bind]
    · rw [mulStep_fault second,Run.fault_bind]
  · rw [mulStep_fault first,Run.fault_bind]

theorem nToK_done (fits : NToKFits bits n total rcv) (strict : Bool) : nToK strict bits n total rcv = .done (credit n total rcv) := by
  have positive : total.toNat ≠ 0 := fun zero => fits.1 (UInt32.toNat_inj.mp zero)
  simp only [nToK,scaled_done (by decide) fits.2,divStep_done positive,divStep_done (show (100 : Nat) ≠ 0 by decide),
    divStep_done (show (1000000 : Nat) ≠ 0 by decide),Run.done_bind,credit]

theorem nToK_fault (wrong : ¬NToKFits bits n total rcv) : nToK true bits n total rcv = .fault := by
  unfold nToK
  rcases Nat.lt_or_ge (n.toNat * rcv.toNat * rcv.toNat * 80 * 1000000) (2 ^ bits) with fits | wraps
  · have zero : total = 0 := by
      by_contra positive
      exact wrong ⟨positive,fits⟩
    rw [scaled_done (by decide) fits,Run.done_bind,zero]
    rfl
  · rw [scaled_fault wraps,Run.fault_bind]

theorem kToN_done (fits : KToNFits bits k total rcv) (strict : Bool) :
    kToN strict bits k total rcv = .done (clout bits k total rcv) := by
  have positive : rcv.toNat ≠ 0 := fun zero => fits.1 (UInt32.toNat_inj.mp zero)
  simp only [kToN,scaled_done (by decide) fits.2,divStep_done positive,divStep_done (show (80 : Nat) ≠ 0 by decide),
    divStep_done (show (1000000 : Nat) ≠ 0 by decide),Run.done_bind,clout]

theorem kToN_fault (wrong : ¬KToNFits bits k total rcv) : kToN true bits k total rcv = .fault := by
  unfold kToN
  rcases Nat.lt_or_ge (k.toNat * total.toNat * total.toNat * 100 * 1000000) (2 ^ bits) with fits | wraps
  · have zero : rcv = 0 := by
      by_contra positive
      exact wrong ⟨positive,fits⟩
    rw [scaled_done (by decide) fits,Run.done_bind,zero]
    rfl
  · rw [scaled_fault wraps,Run.fault_bind]

theorem prDof_done (fits : ∀ info, trInfoFindAddr list addr = some info → NToKFits bits par.dataN info.totalNum (firstRcv info.rcvNum))
    (strict : Bool) : trInfoListPrDof strict bits par list addr = .done (lacks par list addr) := by
  unfold trInfoListPrDof lacks
  cases found : trInfoFindAddr list addr with
  | none => rfl
  | some info =>
    dsimp only
    rw [nToK_done (fits info found),Run.done_bind]
    split
    · next more =>
      apply act_inside
      intro u member
      cases List.mem_singleton.mp member
      exact Nat.lt_succ_of_lt more
    · rfl

theorem prDof_fault (found : trInfoFindAddr list addr = some info)
    (wrong : ¬NToKFits bits par.dataN info.totalNum (firstRcv info.rcvNum)) : trInfoListPrDof true bits par list addr = .fault := by
  rw [trInfoListPrDof,found]
  dsimp only
  rw [nToK_fault wrong,Run.fault_bind]

theorem maxClout_exact (nbrs : List TrInfo) (maxClout : UInt8) :
    (∃ v, ∀ strict, maxCloutFrom strict bits par list nbrs maxClout = .done v) ∧ (∀ nbr ∈ nbrs, CloutFits bits par list nbr) ∨
      maxCloutFrom true bits par list nbrs maxClout = .fault ∧ ¬∀ nbr ∈ nbrs, CloutFits bits par list nbr := by
  induction nbrs generalizing maxClout with
  | nil => exact Or.inl ⟨⟨maxClout,fun _ => rfl⟩,fun _ none_left => (nomatch none_left)⟩
  | cons nbr rest ih =>
    by_cases fits : CloutFits bits par list nbr
    · have next : ∀ strict, maxCloutFrom strict bits par list (nbr :: rest) maxClout = maxCloutFrom strict bits par list rest
          (if maxClout < clout bits (lacks par list nbr.addr) nbr.totalNum (firstRcv nbr.rcvNum) then
            clout bits (lacks par list nbr.addr) nbr.totalNum (firstRcv nbr.rcvNum) else maxClout) := by
        intro _
        rw [maxCloutFrom,prDof_done fits.heard,Run.done_bind,kToN_done fits.clout,Run.done_bind]
      simp only [next,List.forall_mem_cons,fits,true_and]
      exact ih _
    · refine Or.inr ⟨?_,fun all => fits (all nbr List.mem_cons_self)⟩
      by_cases heard : ∀ info, trInfoFindAddr list nbr.addr = some info → NToKFits bits par.dataN info.totalNum (firstRcv info.rcvNum)
      · rw [maxCloutFrom,prDof_done heard,Run.done_bind,kToN_fault fun clout => fits ⟨heard,clout⟩,Run.fault_bind]
      · obtain ⟨_,wrong⟩ := not_forall.mp heard
        obtain ⟨found,wrong⟩ := Classical.not_imp.mp wrong
        rw [maxCloutFrom,prDof_fault found wrong,Run.fault_bind]

theorem dstInfoRank_keeps (raddr : EthAddr) (v : UInt8) (dst : DstInfo) :
    (dstInfoRank raddr v dst).addr = dst.addr ∧ (dstInfoRank raddr v dst).prDof = dst.prDof := by
  unfold dstInfoRank
  split
  · split
    · split <;> exact ⟨rfl,rfl⟩
    · exact ⟨rfl,rfl⟩
  · exact ⟨rfl,rfl⟩

theorem getMinDofAt_exact (list : List TrInfo) (dst : DstInfo) :
    (∃ v, ∀ strict, getMinDofAt strict bits list dst = .done v) ∧ RankFits bits list dst.addr dst.prDof ∨
      getMinDofAt true bits list dst = .fault ∧ ¬RankFits bits list dst.addr dst.prDof := by
  induction list generalizing dst with
  | nil => exact Or.inl ⟨⟨dst,fun _ => rfl⟩,fun _ none_left => (nomatch none_left)⟩
  | cons info rest ih =>
    unfold RankFits
    rw [List.forall_mem_cons]
    unfold getMinDofAt
    cases found : trInfoFindAddr info.nbrList dst.addr with
    | none =>
      simp only [reduceCtorEq,false_implies,implies_true,true_and]
      exact ih dst
    | some nbr =>
      simp only [Option.some.injEq,forall_eq']
      by_cases fits : KToNFits bits dst.prDof nbr.totalNum (firstRcv nbr.rcvNum)
      · simp only [kToN_done fits,Run.done_bind,fits,true_and]
        have later := ih (dstInfoRank info.addr (clout bits dst.prDof nbr.totalNum (firstRcv nbr.rcvNum)) dst)
        obtain ⟨addr,prDof⟩ := dstInfoRank_keeps info.addr (clout bits dst.prDof nbr.totalNum (firstRcv nbr.rcvNum)) dst
        rw [addr,prDof] at later
        exact later
      · refine Or.inr ⟨?_,fun all => fits all.1⟩
        rw [kToN_fault fits,Run.fault_bind]

theorem getMinDof_exact (list : List TrInfo) (dsts : List DstInfo) :
    (∃ v, ∀ strict, dstInfoListGetMinDof strict bits list dsts = .done v) ∧ (∀ dst ∈ dsts, DofFits bits list dst) ∨
      dstInfoListGetMinDof true bits list dsts = .fault ∧ ¬∀ dst ∈ dsts, DofFits bits list dst := by
  induction dsts with
  | nil => exact Or.inl ⟨⟨[],fun _ => rfl⟩,fun _ none_left => (nomatch none_left)⟩
  | cons dst rest ih =>
    have here : (∃ d, ∀ strict, (if dst.prDof ≠ 0 then getMinDofAt strict bits list dst else .done dst) = .done d) ∧ DofFits bits list dst ∨
        (if dst.prDof ≠ 0 then getMinDofAt true bits list dst else .done dst) = .fault ∧ ¬DofFits bits list dst := by
      by_cases lacking : dst.prDof ≠ 0
      · simp only [DofFits,lacking,if_true,true_implies,not_false_eq_true,ne_eq]
        exact getMinDofAt_exact list dst
      · exact Or.inl ⟨⟨dst,fun _ => if_neg lacking⟩,fun more => absurd more lacking⟩
    rw [List.forall_mem_cons]
    simp only [dstInfoListGetMinDof]
    rcases here with ⟨⟨d,ran⟩,fits⟩ | ⟨fault,wrong⟩
    · simp only [ran,Run.done_bind,fits,true_and]
      rcases ih with ⟨⟨ds,rest_ran⟩,all⟩ | ⟨fault,wrong⟩
      · refine Or.inl ⟨⟨d :: ds,fun strict => ?_⟩,all⟩
        rw [rest_ran,Run.done_bind]
      · refine Or.inr ⟨?_,wrong⟩
        rw [fault,Run.fault_bind]
    · refine Or.inr ⟨?_,fun all => wrong all.1⟩
      rw [fault,Run.fault_bind]

theorem exact_iff {run : Bool → Run α}
    (exact : (∃ v, ∀ strict, run strict = .done v) ∧ fits ∨ run true = .fault ∧ ¬fits) :
    (∃ v, ∀ strict, run strict = .done v) ↔ fits := by
  rcases exact with ⟨ran,fits⟩ | ⟨fault,wrong⟩
  · exact ⟨fun _ => fits,fun _ => ran⟩
  · refine ⟨fun ⟨v,ran⟩ => ?_,fun fits => absurd fits wrong⟩
    have stopped := (ran true).symm.trans fault
    cases stopped

theorem relay_arithmetic (bits : Nat) (par : TrParam) (list : List TrInfo) (info : TrInfo) (dsts : List DstInfo) :
    ((∃ v, ∀ strict, trInfoMaxClout strict bits par list info = .done v) ↔ ∀ nbr ∈ info.nbrList, CloutFits bits par list nbr) ∧
      ((∃ v, ∀ strict, dstInfoListGetMinDof strict bits list dsts = .done v) ↔ ∀ dst ∈ dsts, DofFits bits list dst) :=
  ⟨exact_iff (maxClout_exact info.nbrList 0),exact_iff (getMinDof_exact list dsts)⟩

namespace RelaySample
open TlRxSrc Sample

def starting : Event := .start ⟨0,fun a => if a = 59 then 10 else if a = 60 then 12 else if a = 61 then 20 else if a = 62 then 1 else 0,
  0,64,0,0,0,0x0800,0,dev,0⟩
def report : Event := .frame (frame source ([3,0,0,0,0,0,20] ++ List.replicate 28 0))
def nbrReport : Event :=
  .frame (frame source ([6,0,0,0,20,1] ++ [2,0,0,0,0,7] ++ [0,0] ++ [0,0,0,0,0,0,0,20] ++ List.replicate 24 0))
def begin : TlRxSrc.State := TlRxSrc.initial fun _ => 0
def started : TlRxSrc.State := (TlRxSrc.step (fun _ => false) starting begin).getD begin
def reported : TlRxSrc.State := (TlRxSrc.step room report started).getD started
def polled : TlRxSrc.State := (TlRxSrc.step room .tr1Expires reported).getD reported
def answered : TlRxSrc.State := (TlRxSrc.step room nbrReport polled).getD polled

theorem reached : ∃ since, Runs (fun _ => 0) (fun _ _ _ => True) answered since := by
  have first : Runs (fun _ => 0) (fun _ _ _ => True) started _ :=
    .step (e := starting) .start trivial trivial (show TlRxSrc.step (fun _ => false) starting begin = some started from rfl)
  have second : Runs (fun _ => 0) (fun _ _ _ => True) reported _ :=
    .step (e := report) first trivial trivial (show TlRxSrc.step room report started = some reported from rfl)
  have third : Runs (fun _ => 0) (fun _ _ _ => True) polled _ :=
    .step (e := .tr1Expires) second rfl trivial (show TlRxSrc.step room .tr1Expires reported = some polled from rfl)
  exact ⟨_,.step (e := nbrReport) third trivial trivial (show TlRxSrc.step room nbrReport polled = some answered from rfl)⟩

end RelaySample

-- The code divides by that count.
open RelaySample in
theorem silent_neighbour : (∃ since, TlRxSrc.Runs (fun _ => 0) (fun _ _ _ => True) answered since) ∧
    ∃ info ∈ answered.srcNbrList, trInfoMaxClout false 64 answered.par answered.srcNbrList info = .fault ∧
      ¬∃ v, ∀ strict, trInfoMaxClout strict 64 answered.par answered.srcNbrList info = .done v := by
  have stops : (answered.srcNbrList.map fun info => trInfoMaxClout false 64 answered.par answered.srcNbrList info) = [.fault] := rfl
  cases list : answered.srcNbrList with
  | nil =>
    rw [list] at stops
    cases stops
  | cons info rest =>
    rw [list] at stops
    have fault := (List.cons.inj stops).1
    refine ⟨reached,info,List.mem_cons_self,fault,?_⟩
    rintro ⟨v,ran⟩
    have done := (ran false).symm.trans fault
    cases done

end Mac80211.TlRx
