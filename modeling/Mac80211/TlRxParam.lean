namespace Mac80211

-- With the initial value of tl_rx_param.c.
structure TrParam where
  src : Bool := false
  sys : Bool := false
  dataK : UInt8 := 10
  dataN : UInt8 := 0
  tfK : UInt32 := 0
  tfThre : UInt32 := 0
  maxRelayN : UInt8 := 0

def trSetParam (src sys : Bool) (dataK dataN : UInt8) (tfK tfThre : UInt32) (maxRelayN : UInt8) : TrParam :=
  ⟨src,sys,dataK,dataN,tfK,tfThre,maxRelayN⟩

end Mac80211
