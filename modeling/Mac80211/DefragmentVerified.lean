import Mac80211.DefragmentKeys
import Mac80211.WpaReplay

namespace Mac80211.DefragmentKeys
open Ieee80211
open Wpa (Aead Cipher)

theorem select_key_pass {w : World} (passed : w.selectKey f = .pass key) (matched : f.raMatch = true)
    (secured : hasProtected f.fc = true) : f.stripped = true := by
  unfold World.selectKey at passed
  rw [matched,secured] at passed
  simp only [Bool.not_true,Bool.or_false,Bool.false_eq_true,if_false,if_true] at passed
  split at passed
  · split at passed
    · assumption
    · cases passed
  unfold World.indexed at passed
  split at passed
  · assumption
  split at passed
  · cases passed
  dsimp only at passed
  split at passed
  · cases passed
  split at passed
  · cases passed
  split at passed <;> cases passed

theorem indexed_decrypt {w : World} (chosen : w.indexed f sta = .decrypt k) : f.stripped = false := by
  unfold World.indexed at chosen
  split at chosen
  · cases chosen
  · rename_i whole
    simpa using whole

theorem bip_decrypt {w : World} (chosen : w.bip f sta idx = .decrypt k) : f.stripped = false := by
  unfold World.bip at chosen
  split at chosen
  · cases chosen
  · rename_i whole
    simpa using whole

theorem select_key_decrypt {w : World} (chosen : w.selectKey f = .decrypt k) : f.raMatch = true ∧ f.stripped = false := by
  unfold World.selectKey at chosen
  split at chosen
  · cases chosen
  rename_i matched
  refine ⟨by simpa using matched,?_⟩
  dsimp only at chosen
  split at chosen
  · split at chosen
    · cases chosen
    · rename_i whole
      simp only [Bool.or_eq_true,not_or,Bool.not_eq_true] at whole
      exact whole.1
  · split at chosen
    · exact indexed_decrypt chosen
    split at chosen
    · exact bip_decrypt chosen
    · unfold World.unprotected at chosen
      split at chosen <;> cases chosen

def Part.counted (part : Part) : Bool :=
  part.rx.ccmpKey && hasProtected part.rx.fc && part.checked && !part.stripped

-- What defragmentation may rely on: the key that was picked, and when it verified the frame.
structure Part.Sound (part : Part) : Prop where
  ccmpKey : part.rx.ccmpKey = part.key.any fun k => k.2.isCcmp
  verifiedKey : ∀ k, part.verified = some k → part.key = some k
  verifies : ∀ k, part.key = some k → k.2.cipher.isSome = true → hasProtected part.rx.fc = true →
    (part.verified = some k ↔ part.checked = true)
  counter : part.counted = true → part.rx.rxPn = part.number.toList ∧ 0 < part.number.number

theorem part_verified_key (w : World) (f : RxFrame) (key : Option Nat) (m : Mpdu) (verified : Bool)
    (under : (w.part f key m verified).verified = some k) : (w.part f key m verified).key = some k := by
  simp only [World.part] at under ⊢
  split at under
  · exact under
  · cases under

theorem pass_sound {w : World} (passed : w.selectKey f = .pass key) :
    (w.part f key f.skb (f.raMatch && f.stripped)).Sound := by
  have device : f.raMatch = true → hasProtected f.fc = true → f.stripped = true := select_key_pass passed
  constructor
  · rfl
  · intro k
    exact part_verified_key w f key f.skb _
  · intro k keyed _ secured
    simp only [World.part,RxFrame.checked] at keyed ⊢
    change hasProtected f.fc = true at secured
    cases matched : f.raMatch with
    | false => simp
    | true => simp [device matched secured,secured,keyed]
  · intro counted
    simp only [Part.counted,World.part,RxFrame.checked,Bool.and_eq_true,Bool.not_eq_true'] at counted
    obtain ⟨⟨⟨_,secured⟩,matched,_⟩,whole⟩ := counted
    rw [device matched secured] at whole
    cases whole

theorem accept_hdr (accepted : (Wpa.accept key rx data).2 = .accepted m) : m.hdr = rx.skb.hdr := by
  unfold Wpa.accept at accepted
  split at accepted
  · cases accepted
  · cases accepted
    rfl

theorem accept_encrypted (key : Wpa.Key) (rx : Wpa.RxData) (data : List UInt8) : (Wpa.accept key rx data).2 ≠ .notEncrypted := by
  unfold Wpa.accept
  split
  · exact nofun
  · exact nofun

theorem not_encrypted_iff (aead : Aead) (c : Cipher) (key : Wpa.Key) (rx : Wpa.RxData) :
    (Wpa.cryptoDecrypt aead c key rx).2 = .notEncrypted ↔
      (isData rx.skb.hdr.frameControl || isRobustMgmtFrame rx.skb) = false := by
  unfold Wpa.cryptoDecrypt
  dsimp only
  split
  · rename_i plain
    simpa using plain
  rename_i checked
  have encrypted : (isData rx.skb.hdr.frameControl || isRobustMgmtFrame rx.skb) ≠ false := by
    simpa using checked
  refine iff_of_false ?_ encrypted
  split
  · exact nofun
  split
  · exact nofun
  split
  · exact nofun
  split
  · exact accept_encrypted _ _ _
  split
  · exact nofun
  · exact accept_encrypted _ _ _

theorem accepted_cases (aead : Aead) (c : Cipher) (key : Wpa.Key) (rx : Wpa.RxData)
    (opened : (Wpa.cryptoDecrypt aead c key rx).2 = .accepted m) : m.hdr = rx.skb.hdr ∧
      (Wpa.cryptoDecrypt aead c key rx).1.rxPn (securityIdx rx.skb.hdr) = Wpa.hdr2pn rx.skb.body ∧
      0 < (Wpa.hdr2pn rx.skb.body).number := by
  rcases Wpa.decrypt_cases aead c key rx with ⟨_,_,refused⟩ | ⟨newer,_,_,_,accepted⟩
  · rw [opened] at refused
    cases refused
  · rw [accepted] at opened ⊢
    refine ⟨accept_hdr opened,?_,Nat.lt_of_le_of_lt (Nat.zero_le _) newer⟩
    rw [Wpa.accept_rxPn,Function.update_self]

theorem decrypt_with_cipher {w : World} (aead : Aead) (ciphered : key.suite.cipher = some c)
    (got : w.decryptWith aead f k key = (after,some (m,verified))) : m.hdr = f.skb.hdr ∧
      verified = (isData f.fc || isRobustMgmtFrame f.skb) ∧
      ∃ state, after = {w with keys := w.keys.set k {key with state := state}} ∧
        (verified = true → state.rxPn (securityIdx f.skb.hdr) = Wpa.hdr2pn f.skb.body ∧ 0 < (Wpa.hdr2pn f.skb.body).number) := by
  unfold World.decryptWith at got
  split at got
  · cases got
  rw [ciphered] at got
  obtain ⟨world,taken⟩ := Prod.mk.inj got
  have plain := not_encrypted_iff aead c key.state f.rxData
  cases opened : (Wpa.cryptoDecrypt aead c key.state f.rxData).2 with
  | dropUnusable =>
    rw [opened] at taken
    cases taken
  | notEncrypted =>
    rw [opened] at taken
    cases taken
    exact ⟨rfl,(plain.mp opened).symm,_,world.symm,nofun⟩
  | accepted =>
    rw [opened] at taken
    cases taken
    obtain ⟨header,counter⟩ := accepted_cases aead c key.state f.rxData opened
    rw [opened] at plain
    have checked : (isData f.fc || isRobustMgmtFrame f.skb) ≠ false := fun unchecked => nomatch plain.mpr unchecked
    exact ⟨header,(Bool.eq_true_of_not_eq_false checked).symm,_,world.symm,fun _ => counter⟩

theorem decrypt_with_key {w : World} (aead : Aead) (installed : w.keys[k]? = some key)
    (got : w.decryptWith aead f k key = (after,some (m,verified))) : after.key k = some (k,key.suite) := by
  cases ciphered : key.suite.cipher with
  | none =>
    unfold World.decryptWith at got
    split at got
    · cases got
    rw [ciphered] at got
    cases (Prod.mk.inj got).1
    simp [World.key,installed]
  | some =>
    obtain ⟨_,_,_,rfl,_⟩ := decrypt_with_cipher aead ciphered got
    have small : k < w.keys.length := (List.getElem?_eq_some_iff.mp installed).1
    simp [World.key,small]

theorem ccmp_ciphered {suite : Suite} (ccmp : suite.isCcmp = true) : suite.cipher.isSome = true := by
  cases suite with
  | wep | gcmp | gcmp256 | other => cases ccmp
  | ccmp => rfl
  | ccmp256 => rfl

theorem decrypt_sound {w : World} (aead : Aead) (chosen : w.selectKey f = .decrypt k) (installed : w.keys[k]? = some key)
    (got : w.decryptWith aead f k key = (after,some (m,verified))) : (after.part f (some k) m verified).Sound := by
  obtain ⟨matched,whole⟩ := select_key_decrypt chosen
  have keyed : after.key k = some (k,key.suite) := decrypt_with_key aead installed got
  have checked : f.checked = (isData f.fc || isRobustMgmtFrame f.skb) := by simp [RxFrame.checked,matched,whole]
  constructor
  · rfl
  · intro k'
    exact part_verified_key after f (some k) m verified
  · intro k' under ciphered secured
    cases keyed.symm.trans under
    obtain ⟨c,ciphered⟩ := Option.isSome_iff_exists.mp ciphered
    obtain ⟨header,opened,_⟩ := decrypt_with_cipher aead ciphered got
    change hasProtected m.hdr.frameControl = true at secured
    rw [header] at secured
    change hasProtected f.fc = true at secured
    simp only [World.part,Option.bind_some,keyed,checked,opened,secured,Bool.and_true]
    cases isData f.fc || isRobustMgmtFrame f.skb with
    | true => simp
    | false => simp
  intro counted
  simp only [Part.counted,World.part,Option.bind_some,keyed,Option.any_some,Bool.and_eq_true,checked] at counted
  obtain ⟨⟨⟨ccmp,_⟩,opens⟩,_⟩ := counted
  obtain ⟨c,ciphered⟩ := Option.isSome_iff_exists.mp (ccmp_ciphered ccmp)
  obtain ⟨header,opened,_,rfl,counter⟩ := decrypt_with_cipher aead ciphered got
  have small : k < w.keys.length := (List.getElem?_eq_some_iff.mp installed).1
  obtain ⟨counts,positive⟩ := counter (opened.trans (by simpa using opens))
  simp only [World.part,World.rxPn,Option.bind_some,List.getElem?_set_self small,Option.map_some,Option.getD_some,header,whole,
    Bool.false_eq_true,if_false,counts]
  exact ⟨trivial,positive⟩

theorem rx_h_decrypt_sound {w : World} (aead : Aead) (got : w.rxHDecrypt aead f = (after,some part)) : part.Sound := by
  unfold World.rxHDecrypt at got
  split at got
  · cases got
  · rename_i passed
    cases got
    exact pass_sound passed
  · rename_i chosen
    split at got
    · cases got
    · rename_i installed
      obtain ⟨_,handed⟩ := Prod.mk.inj got
      obtain ⟨m,decrypted,rfl⟩ := Option.map_eq_some_iff.mp handed
      exact decrypt_sound aead chosen installed (Prod.ext rfl decrypted)

end Mac80211.DefragmentKeys
