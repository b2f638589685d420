import Smqueue.Addresses
import Smqueue.Proofs.QueueRecordsProofs

/-!
# Proofs: addresses as text

The text of an address of the internet has one colon, in front of the port, so that `parse_addr` finds
the host and the port again.
-/

namespace Smqueue

variable {s t w : CString} {c : UInt8}

theorem strchr_ahead (hw : c ∉ w) : strchr c (w ++ c :: t) = some (c :: t) := by
  have hne : ∀ x ∈ w, decide (x ≠ c) = true := fun x hx => decide_eq_true fun h => hw (h ▸ hx)
  unfold strchr
  rw [if_pos (List.mem_append_right _ (List.mem_cons_self ..)),
    InputStream.dropWhile_ahead hne (by simp)]

theorem ne_of_isDigit (hc : InputStream.isDigit c = false) (n : Nat) : c ∉ decimal n := by
  intro h
  rw [isDigit_decimal n c h] at hc
  cases hc

/-! ## The host and the port -/

namespace InetAddr

variable {x : InetAddr}

/-- A host consists of digits and dots. -/
theorem mem_host (h : c ∈ x.host) : InputStream.isDigit c = true ∨ c = 46 := by
  unfold host at h
  simp only [List.mem_append, List.mem_cons] at h
  rcases h with h | rfl | h | rfl | h | rfl | h
  · exact .inl (isDigit_decimal _ c h)
  · exact .inr rfl
  · exact .inl (isDigit_decimal _ c h)
  · exact .inr rfl
  · exact .inl (isDigit_decimal _ c h)
  · exact .inr rfl
  · exact .inl (isDigit_decimal _ c h)

theorem dot_mem_host (x : InetAddr) : 46 ∈ x.host := by
  unfold host
  exact List.mem_append_right _ (List.mem_cons_self ..)

theorem colon_not_mem_host (x : InetAddr) : 58 ∉ x.host := by
  intro h
  rcases mem_host h with hdigit | hdot
  · exact absurd hdigit (by decide)
  · exact absurd hdot (by decide)

theorem sockaddr_length (x : InetAddr) : x.sockaddr.length = 16 := rfl

end InetAddr

namespace NameService

variable {ns : NameService} {x : InetAddr} {srcaddr : List UInt8}

theorem stringAddr_inet (hn : ns.Lawful) (x : InetAddr) :
    ns.stringAddr x.sockaddr true = x.host ++ 58 :: x.port := by
  have hne : x.sockaddr ≠ [] := List.ne_nil_of_length_pos (by rw [x.sockaddr_length]; omega)
  have hcolon : str ":" = [58] := by decide
  unfold stringAddr
  rw [if_neg hne, hn.getnameinfo_inet]
  dsimp only
  rw [if_pos rfl, hcolon, List.append_assoc]
  rfl

theorem stringAddr_nil (ns : NameService) : ns.stringAddr [] true = str "0:0" := by
  unfold stringAddr
  rfl

/-- The text of an address has no white space. -/
theorem isspace_stringAddr (hn : ns.Lawful) (h : Storable srcaddr) :
    ∀ c ∈ ns.stringAddr srcaddr true, isspace c = false := by
  intro c hc
  rcases h with rfl | ⟨x, rfl⟩
  · have htext : str "0:0" = [48, 58, 48] := by decide
    rw [stringAddr_nil, htext] at hc
    simp only [List.mem_cons, List.not_mem_nil, or_false] at hc
    rcases hc with rfl | rfl | rfl <;> rfl
  · rw [stringAddr_inet hn] at hc
    rcases List.mem_append.1 hc with hhost | hport
    · rcases InetAddr.mem_host hhost with hdigit | rfl
      · exact isspace_of_isDigit c hdigit
      · decide
    · rcases List.mem_cons.1 hport with rfl | hport
      · decide
      · exact isspace_of_isDigit c (isDigit_decimal _ c hport)

theorem stringAddr_ne_nil (hn : ns.Lawful) (h : Storable srcaddr) :
    ns.stringAddr srcaddr true ≠ [] := by
  rcases h with rfl | ⟨x, rfl⟩
  · rw [stringAddr_nil]
    decide
  · rw [stringAddr_inet hn]
    simp

/-- The text of an address is parsed back into the address. -/
theorem parseAddr_stringAddr (hn : ns.Lawful) (h : Storable srcaddr) :
    ns.parseAddr msgSrcaddrSize (ns.stringAddr srcaddr true) = some srcaddr := by
  rcases h with rfl | ⟨x, rfl⟩
  · rw [stringAddr_nil]
    rfl
  · rw [stringAddr_inet hn]
    have hempty : x.host ++ 58 :: x.port ≠ str "0:0" := by
      intro heq
      have hdot : (46 : UInt8) ∈ str "0:0" := heq ▸ List.mem_append_left _ x.dot_mem_host
      exact absurd hdot (by decide)
    have htake : (x.host ++ 58 :: x.port).take
        ((x.host ++ 58 :: x.port).length - (58 :: x.port).length) = x.host := by
      rw [List.length_append, Nat.add_sub_cancel, List.take_left]
    obtain ⟨family, protocol, haddrs⟩ := hn.getaddrinfo_inet false x
    unfold parseAddr
    rw [strchr_ahead x.colon_not_mem_host]
    dsimp only
    rw [if_neg hempty, htake]
    rw [List.drop_one, List.tail_cons, haddrs]
    rfl

/-! ## A name service -/

/-- A name service that knows numbers only. -/
def numbers : NameService where
  getnameinfo
    | [2, 0, portHigh, portLow, a, b, c, d, 0, 0, 0, 0, 0, 0, 0, 0] =>
      let x : InetAddr := ⟨a, b, c, d, portHigh, portLow⟩
      some (x.host, x.port)
    | _ => none
  inetNtop _ _ := none
  getaddrinfo _ host port :=
    match (host.splitOn 46).map InputStream.valueOf with
    | [a, b, c, d] =>
      let n := InputStream.valueOf port
      let x : InetAddr := ⟨.ofNat a, .ofNat b, .ofNat c, .ofNat d, .ofNat (n / 256), .ofNat n⟩
      some [⟨2, sockDgram, 17, 16, x.sockaddr⟩]
    | _ => none

theorem numbers_lawful : numbers.Lawful where
  getnameinfo_inet := fun _ => rfl
  getaddrinfo_inet := fun idn x => by
    have hdot : ∀ n, (46 : UInt8) ∉ decimal n := ne_of_isDigit (by decide)
    have hsplit : x.host.splitOn 46 =
        [decimal x.a.toNat, decimal x.b.toNat, decimal x.c.toNat, decimal x.d.toNat] := by
      have hhost : x.host = [46].intercalate
          [decimal x.a.toNat, decimal x.b.toNat, decimal x.c.toNat, decimal x.d.toNat] := by
        simp [InetAddr.host, List.intercalate]
      rw [hhost, List.splitOn_intercalate 46 (by simp [hdot]) (List.cons_ne_nil _ _)]
    have hport : InputStream.valueOf x.port = 256 * x.portHigh.toNat + x.portLow.toNat :=
      valueOf_decimal _
    have hlow : x.portLow.toNat < 256 := x.portLow.toNat_lt
    have hhigh : UInt8.ofNat ((256 * x.portHigh.toNat + x.portLow.toNat) / 256) = x.portHigh := by
      rw [show (256 * x.portHigh.toNat + x.portLow.toNat) / 256 = x.portHigh.toNat by omega]
      exact UInt8.ofNat_toNat
    have hlow' : UInt8.ofNat (256 * x.portHigh.toNat + x.portLow.toNat) = x.portLow := by
      apply UInt8.toNat.inj
      rw [UInt8.toNat_ofNat']
      omega
    refine ⟨2, 17, ?_⟩
    unfold numbers
    dsimp only
    rw [hsplit]
    simp only [List.map_cons, List.map_nil, valueOf_decimal, hport, UInt8.ofNat_toNat, hhigh, hlow']

end NameService

end Smqueue
