import Mac80211.Ieee80211
import Mac80211.RxReorder

namespace Mac80211.Defragment
open Ieee80211
open RxReorder (Jiffies timeAfter)

def fragmentMax : Nat := 4

-- The queue, the key it was decrypted with and the number left there, the time, the room behind its data,
-- and whether memory is found to make it linear and to put an MSDU together.
structure Rx where
  skb : Mpdu
  seqnoIdx : Nat
  ccmpKey : Bool
  rxPn : List UInt8
  jiffies : Jiffies
  tailroom : Nat
  linear : Bool
  expanded : Bool
deriving DecidableEq

def Rx.fc (rx : Rx) : UInt16 := rx.skb.hdr.frameControl
def Rx.frag (rx : Rx) : Nat := (rx.skb.hdr.seqCtrl &&& 0x000f).toNat
def Rx.seq (rx : Rx) : Nat := ((rx.skb.hdr.seqCtrl &&& 0xfff0) >>> 4).toNat

-- The frames as received; those after the first have their headers pulled.
structure FragmentEntry where
  skbList : List Rx
  firstFragTime : Jiffies
  seq : Nat
  rxQueue : Nat
  lastFrag : Nat
  ccmp : Bool
  lastPn : List UInt8
  extraLen : Nat

structure Sdata where
  fragments : Nat → FragmentEntry
  fragmentNext : Nat

def Sdata.setEntry (s : Sdata) (idx : Nat) (entry : FragmentEntry) : Sdata :=
  {s with fragments := Function.update s.fragments idx entry}

def reassembleAdd (s : Sdata) (rx : Rx) : Sdata × Nat :=
  let idx := s.fragmentNext
  let next := if idx + 1 ≥ fragmentMax then 0 else idx + 1
  ({s.setEntry idx {s.fragments idx with
      skbList := [rx],
      firstFragTime := rx.jiffies,
      seq := rx.seq,
      rxQueue := rx.seqnoIdx,
      lastFrag := rx.frag,
      ccmp := false,
      extraLen := 0} with fragmentNext := next},idx)

def matching (entry : FragmentEntry) (rx : Rx) : Bool :=
  match entry.skbList with
  | [] => false
  | first :: _ =>
    entry.seq == rx.seq && entry.rxQueue == rx.seqnoIdx && entry.lastFrag + 1 == rx.frag &&
      (rx.fc ^^^ first.fc) &&& fctlFtype == 0 && rx.skb.hdr.addr1 == first.skb.hdr.addr1 && rx.skb.hdr.addr2 == first.skb.hdr.addr2

def reassembleFind (hz : UInt16) (rx : Rx) : Nat → Nat → Sdata → Sdata × Option Nat
  | 0,_,s => (s,none)
  | rounds + 1,idx,s =>
    let idx := if idx = 0 then fragmentMax - 1 else idx - 1
    let entry := s.fragments idx
    if !matching entry rx then reassembleFind hz rx rounds idx s
    else if timeAfter rx.jiffies (entry.firstFragTime + 2 * hz.toUInt64) then
      reassembleFind hz rx rounds idx (s.setEntry idx {entry with skbList := []})
    else (s,some idx)

def incPn : List UInt8 → List UInt8
  | [] => []
  | b :: bytes => if b + 1 ≠ 0 then (b + 1) :: bytes else (b + 1) :: incPn bytes

def nextPn (pn : List UInt8) : List UInt8 := (incPn pn.reverse).reverse

inductive Result where
  | continue (m : Mpdu)
  | queued
  | dropUnusable
  | dropMonitor

def join (first : Rx) (rest : List Rx) : Mpdu := {first.skb with body := first.skb.body ++ rest.flatMap fun rx => rx.skb.body}

def addFragment (s : Sdata) (idx : Nat) (rx : Rx) : Sdata × Result :=
  let entry := s.fragments idx
  let pn := nextPn entry.lastPn
  if entry.ccmp && !rx.ccmpKey then (s,.dropUnusable)
  else if entry.ccmp && pn ≠ rx.rxPn then (s,.dropUnusable)
  else
    let entry := {entry with
      lastPn := if entry.ccmp then pn else entry.lastPn,
      skbList := entry.skbList ++ [rx],
      lastFrag := rx.frag,
      extraLen := entry.extraLen + rx.skb.body.length}
    if hasMoreFrags rx.fc then (s.setEntry idx entry,.queued)
    else
      match entry.skbList with
      | [] => (s.setEntry idx entry,.queued)
      | first :: rest =>
        if first.tailroom < entry.extraLen && !rx.expanded then (s.setEntry idx {entry with skbList := []},.dropUnusable)
        else (s.setEntry idx {entry with skbList := []},.continue (join first rest))

def rxHDefragment (hz : UInt16) (s : Sdata) (rx : Rx) : Sdata × Result :=
  if isCtl rx.fc then (s,.continue rx.skb)
  else if isMulticastEtherAddr rx.skb.hdr.addr1 then (s,.continue rx.skb)
  else if !hasMoreFrags rx.fc && rx.frag == 0 then (s,.continue rx.skb)
  else if !rx.linear then (s,.dropUnusable)
  else if rx.frag = 0 then
    let added := reassembleAdd s rx
    if rx.ccmpKey && hasProtected rx.fc then
      (added.1.setEntry added.2 {added.1.fragments added.2 with ccmp := true,lastPn := rx.rxPn},.queued)
    else (added.1,.queued)
  else
    match reassembleFind hz rx fragmentMax s.fragmentNext s with
    | (s,none) => (s,.dropMonitor)
    | (s,some idx) => addFragment s idx rx

def run (hz : UInt16) : List Rx → Sdata → Sdata × List (Rx × Mpdu)
  | [],s => (s,[])
  | rx :: rxs,s =>
    let out := rxHDefragment hz s rx
    let rest := run hz rxs out.1
    match out.2 with
    | .continue m => (rest.1,(rx,m) :: rest.2)
    | _ => rest

end Mac80211.Defragment
