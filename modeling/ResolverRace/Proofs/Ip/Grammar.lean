import ResolverRace.Proofs.Ip.Shape
import ResolverRace.Proofs.Text.Number

/-!
# The grammar of IP addresses

An IPv4 address has one text, its dotted quad. An IPv6 address has many: eight groups of one to four
hexadecimal digits in either case, the last two of which may be a dotted quad, or fewer groups with
two colons somewhere that stand for one or more groups of zeros. The readers take these texts and no
others.

* `IPv4.read_iff` — the text of an IPv4 address in front of another text.
* `IPv6.Spells` — the texts of an IPv6 address.
* `IPv6.read_of_spells`, `IPv6.spells_of_read` — what is read, and that nothing else is.
* `IpAddress.parseChars?_v4_iff`, `IpAddress.parseChars?_v6_iff` — whole texts.
-/

namespace ResolverRace
open Text

namespace IPv4

theorem readOctet_octetText (o : UInt8) {rest : List Char} (h : NoDigitFirst 10 rest) :
    readOctet (octetText o ++ rest) = some (o, rest) := by
  have hlt : o.toNat < 256 := o.toNat_lt
  have hlen : (decimal o.toNat).length ≤ 3 :=
    (Nat.length_toDigits_le_iff (by decide) (by decide)).2 (by omega)
  have hzero : ¬((decimal o.toNat).head? = some '0' ∧ 1 < (decimal o.toNat).length) := by
    rintro ⟨hhead, hmore⟩
    by_cases ho : o.toNat = 0
    · rw [ho, decimal, Nat.toDigits_zero] at hmore
      exact absurd hmore (by decide)
    · exact head?_toDigits (by decide) ho hhead
  have hvalue : valueOf 10 (decimal o.toNat) = o.toNat := valueOf_toDigits (by decide) (by decide)
  have htake : takeDigits 10 (octetText o ++ rest) = some (decimal o.toNat, rest) :=
    takeDigits_toDigits (by decide) (by decide) h
  rw [readOctet, htake]
  simp [Nat.not_lt.2 hlen, hvalue, hlt] at hzero ⊢
  exact hzero

theorem read_chars (x : IPv4) {rest : List Char} (h : NoDigitFirst 10 rest) :
    read (x.chars ++ rest) = some (x, rest) := by
  have hdot (cs : List Char) : NoDigitFirst 10 ('.' :: cs) := noDigitFirst_cons (by decide)
  simp [read, chars, readOctet_octetText _ (hdot _), readOctet_octetText _ h, dropChar]

/-- An octet is read of its own digits only, since it has no leading zeros. -/
theorem octetText_of_readOctet {cs rest : List Char} {o : UInt8}
    (h : readOctet cs = some (o, rest)) : cs = octetText o ++ rest ∧ NoDigitFirst 10 rest := by
  rw [readOctet] at h
  split at h
  · cases h
  · rename_i digits after htake
    split at h
    · cases h
    · split at h
      · cases h
      · rename_i hzero
        split at h
        · rename_i hlt
          cases h
          obtain ⟨rfl, hne, hdigits⟩ := exists_of_takeDigits htake
          refine ⟨?_, noDigitFirst_of_takeDigits htake⟩
          have hlead : digits.head? = some '0' → digits.length ≤ 1 := by
            simpa [Nat.not_lt] using hzero
          have hvalue : (UInt8.ofNat (valueOf 10 digits)).toNat = valueOf 10 digits :=
            Nat.mod_eq_of_lt hlt
          rw [octetText, hvalue, decimal_valueOf hne hdigits hlead]
        · cases h

/-- An IPv4 address is read where its text stands, with no digit behind it. -/
theorem read_iff {cs rest : List Char} {x : IPv4} :
    read cs = some (x, rest) ↔ cs = x.chars ++ rest ∧ NoDigitFirst 10 rest := by
  constructor
  · intro h
    simp only [read, Option.bind_eq_bind, Option.bind_eq_some_iff, Prod.exists] at h
    obtain ⟨a, r₁, h₁, s₁, hd₁, b, r₂, h₂, s₂, hd₂, c, r₃, h₃, s₃, hd₃, d, r₄, h₄, hx⟩ := h
    cases hx
    obtain ⟨rfl, -⟩ := octetText_of_readOctet h₁
    rw [eq_of_dropChar hd₁]
    obtain ⟨rfl, -⟩ := octetText_of_readOctet h₂
    rw [eq_of_dropChar hd₂]
    obtain ⟨rfl, -⟩ := octetText_of_readOctet h₃
    rw [eq_of_dropChar hd₃]
    obtain ⟨rfl, hrest⟩ := octetText_of_readOctet h₄
    exact ⟨by simp [chars], hrest⟩
  · rintro ⟨rfl, hrest⟩
    exact read_chars x hrest

theorem readOctet_rest {cs rest : List Char} {o : UInt8} (h : readOctet cs = some (o, rest)) :
    rest = cs.dropWhile (isDigitOf 10) := by
  rw [readOctet, takeDigits, List.span_eq_takeWhile_dropWhile] at h
  grind

theorem head?_dropWhile_ne_dot {ds rest : List Char} (hds : ∀ c ∈ ds, isDigitOf 16 c = true)
    (hdot : rest.head? ≠ some '.') (hrest : NoDigitFirst 10 rest) :
    ((ds ++ rest).dropWhile (isDigitOf 10)).head? ≠ some '.' := by
  induction ds with
  | nil =>
    rw [List.nil_append, dropWhile_of_head hrest]
    exact hdot
  | cons d ds ih =>
    rw [List.cons_append, List.dropWhile_cons]
    split
    · exact ih fun c hc => hds c (List.mem_cons_of_mem d hc)
    · rintro ⟨⟩
      have hfalse := hds '.' (List.mem_cons_self ..)
      cases hfalse

/-- What has no dot after its first digits is no dotted quad. -/
theorem read_eq_none {ds rest : List Char} (hds : ∀ c ∈ ds, isDigitOf 16 c = true)
    (hdot : rest.head? ≠ some '.') (hrest : NoDigitFirst 10 rest) : read (ds ++ rest) = none := by
  cases ho : readOctet (ds ++ rest) with
  | none => simp [read, ho]
  | some p =>
    obtain ⟨o, after⟩ := p
    have hafter : after.head? ≠ some '.' := by
      rw [readOctet_rest ho]
      exact head?_dropWhile_ne_dot hds hdot hrest
    have hdrop : dropChar '.' after = none := by
      cases after with
      | nil => rfl
      | cons c cs =>
        have hc : c ≠ '.' := by simpa using hafter
        simp [dropChar, hc]
    simp [read, ho, hdrop]

end IPv4

namespace IPv6

/-! ## The grammar -/

/-- One to four hexadecimal digits, as a group. -/
inductive Group : List Char → UInt16 → Prop where
  | digits {ds : List Char} : ds ≠ [] → ds.length ≤ 4 → (∀ c ∈ ds, isDigitOf 16 c = true) →
      Group ds (.ofNat (valueOf 16 ds))

/-- Groups with colons between. The last two may be written as a dotted quad. -/
inductive Groups : (dotted : Bool) → List Char → List UInt16 → Prop where
  | last {ds : List Char} {g : UInt16} : Group ds g → Groups false ds [g]
  | quad (x : IPv4) : Groups true x.chars [x.toGroups.1, x.toGroups.2]
  | cons {dotted : Bool} {ds cs : List Char} {g : UInt16} {gs : List UInt16} : Group ds g →
      Groups dotted cs gs → Groups dotted (ds ++ ':' :: cs) (g :: gs)

/-- What may stand at a side of two colons: groups, or nothing. -/
inductive Side : (dotted : Bool) → List Char → List UInt16 → Prop where
  | nothing : Side false [] []
  | groups {dotted : Bool} {cs : List Char} {gs : List UInt16} : Groups dotted cs gs →
      Side dotted cs gs

/-- The texts of an address: all of its groups, or two colons in the place of one or more groups of
zeros. -/
inductive Spells : List Char → IPv6 → Prop where
  | full {dotted : Bool} {cs : List Char} {x : IPv6} : Groups dotted cs x.groups → Spells cs x
  | short {dotted : Bool} {left right : List Char} {before after : List UInt16} {zeros : Nat}
      {x : IPv6} : Side false left before → Side dotted right after → 0 < zeros →
      x.groups = before ++ List.replicate zeros 0 ++ after →
      Spells (left ++ ':' :: ':' :: right) x

/-! ## What is spelled is read -/

section

variable {dotted first : Bool} {limit : Nat} {ds cs rest text : List Char} {g : UInt16}
  {gs : List UInt16} {x : IPv6}

/-- No group of an address, nor the rest of one, stands in front. -/
structure Ends (rest : List Char) : Prop where
  noDigit : NoDigitFirst 16 rest
  noDot : rest.head? ≠ some '.'
  noGroup : ∀ after, rest = ':' :: after → NoDigitFirst 16 after

theorem ends_nil : Ends [] := ⟨noDigitFirst_nil 16, by simp, fun _ h => by cases h⟩

theorem ends_colons (cs : List Char) : Ends (':' :: ':' :: cs) := by
  refine ⟨noDigitFirst_cons (by decide), by simp, ?_⟩
  rintro after ⟨⟩
  exact noDigitFirst_cons (by decide)

/-- Nothing is read where no digit stands. -/
theorem readGroups_none {after : List Char}
    (hafter : (if first then some cs else dropChar ':' cs) = some after)
    (h : NoDigitFirst 16 after) : readGroups limit first cs = ⟨[], false, cs⟩ := by
  cases limit with
  | zero => rfl
  | succ limit =>
    have hquad : IPv4.read after = none := by
      simp [IPv4.read, IPv4.readOctet, takeDigits_eq_none (noDigitFirst_ten h)]
    have hgroup : readGroup after = none := by simp [readGroup, takeDigits_eq_none h]
    rw [readGroups, hafter]
    simp only [hgroup]
    split
    · rename_i hread
      split at hread
      · rw [hquad] at hread
        cases hread
      · cases hread
    · rfl

theorem readGroups_ends (h : Ends rest) : readGroups limit false rest = ⟨[], false, rest⟩ := by
  cases limit with
  | zero => rfl
  | succ limit =>
    cases hdrop : dropChar ':' rest with
    | none => simp [readGroups, hdrop]
    | some after =>
      exact readGroups_none (by rw [if_neg (by decide)]; exact hdrop)
        (h.noGroup after (eq_of_dropChar hdrop))

theorem Group.isDigit (h : Group ds g) : ∀ c ∈ ds, isDigitOf 16 c = true := by
  cases h with
  | digits _ _ hdigits => exact hdigits

theorem Group.read (h : Group ds g) (hrest : NoDigitFirst 16 rest) :
    readGroup (ds ++ rest) = some (g, rest) := by
  cases h with
  | digits hne hlen hdigits =>
    have htake : takeDigits 16 (ds ++ rest) = some (ds, rest) := by
      rw [takeDigits, span_digits hdigits hrest]
      cases ds with
      | nil => exact absurd rfl hne
      | cons => rfl
    simp [readGroup, htake, Nat.not_lt.2 hlen]

/-- One group, and the run that goes on after it. -/
theorem readGroups_group (h : Group ds g)
    (htext : (if first then some text else dropChar ':' text) = some (ds ++ rest))
    (hdigit : NoDigitFirst 16 rest) (hdot : rest.head? ≠ some '.') :
    readGroups (limit + 1) first text =
      ⟨g :: (readGroups limit false rest).groups, (readGroups limit false rest).dotted,
        (readGroups limit false rest).rest⟩ := by
  have hquad : IPv4.read (ds ++ rest) = none :=
    IPv4.read_eq_none h.isDigit hdot (noDigitFirst_ten hdigit)
  rw [readGroups, htext]
  simp only [hquad, ite_self, h.read hdigit]

/-- A run of groups is read to its end. -/
theorem readGroups_of_groups (h : Groups dotted cs gs) (hrest : Ends rest)
    (hlen : gs.length ≤ limit)
    (htext : (if first then some text else dropChar ':' text) = some (cs ++ rest)) :
    readGroups limit first text = ⟨gs, dotted, rest⟩ := by
  induction h generalizing limit first text with
  | last hgroup =>
    obtain ⟨limit, rfl⟩ := Nat.exists_eq_add_of_le' hlen
    rw [List.length_singleton, readGroups_group hgroup htext hrest.noDigit hrest.noDot,
      readGroups_ends hrest]
  | quad x =>
    obtain ⟨limit, rfl⟩ := Nat.exists_eq_add_of_le' hlen
    have hread : IPv4.read (x.chars ++ rest) = some (x, rest) :=
      IPv4.read_chars x (noDigitFirst_ten hrest.noDigit)
    rw [List.length_cons, List.length_singleton, readGroups, htext]
    simp [hread]
  | @cons dotted ds cs g gs hgroup _ ih =>
    obtain ⟨limit, rfl⟩ := Nat.exists_eq_add_of_le' hlen
    have htext' : (if first then some text else dropChar ':' text) =
        some (ds ++ ':' :: (cs ++ rest)) := by
      rw [htext, List.append_assoc, List.cons_append]
    rw [List.length_cons, ← Nat.add_assoc,
      readGroups_group hgroup htext' (noDigitFirst_cons (by decide)) (by simp),
      ih (Nat.le_add_left _ _) (by simp [dropChar])]

theorem readGroups_of_side (h : Side dotted cs gs) (hrest : Ends rest)
    (hlen : gs.length ≤ limit) : readGroups limit true (cs ++ rest) = ⟨gs, dotted, rest⟩ := by
  cases h with
  | nothing => exact readGroups_none rfl hrest.noDigit
  | groups h => exact readGroups_of_groups h hrest hlen rfl

theorem ofGroups?_groups (x : IPv6) : ofGroups? x.groups = some x := by
  rw [ofGroups?, dif_pos x.length_eq]

/-- Every text of an address is read as it. -/
theorem read_of_spells (h : Spells cs x) (hrest : Ends rest) :
    read (cs ++ rest) = some (x, rest) := by
  cases h with
  | full hgroups =>
    have hhead : readGroups 8 true (cs ++ rest) = ⟨x.groups, _, rest⟩ :=
      readGroups_of_groups hgroups hrest (Nat.le_of_eq x.length_eq) rfl
    rw [read]
    simp only [hhead, x.length_eq, ↓reduceIte, ofGroups?_groups]
    rfl
  | @short _ left right before after zeros _ hleft hright hzeros hx =>
    have hlen := congrArg List.length hx
    simp only [List.length_append, List.length_replicate, x.length_eq] at hlen
    have hhead : readGroups 8 true (left ++ ':' :: ':' :: (right ++ rest)) =
        ⟨before, false, ':' :: ':' :: (right ++ rest)⟩ :=
      readGroups_of_side hleft (ends_colons _) (by omega)
    have htail : readGroups (7 - before.length) true (right ++ rest) = ⟨after, _, rest⟩ :=
      readGroups_of_side hright hrest (by omega)
    have hgroups : ofGroups? (before ++ List.replicate (8 - before.length - after.length) 0 ++
        after) = some x := by
      rw [show 8 - before.length - after.length = zeros by omega, ← hx, ofGroups?_groups]
    rw [List.append_assoc, List.cons_append, List.cons_append, read]
    simp only [hhead]
    rw [if_neg (by omega), if_neg (by decide)]
    simp only [dropChar, ↓reduceIte, Option.bind_eq_bind, Option.bind_some, htail, hgroups]
    rfl

/-! ## Nothing else is read -/

theorem group_of_readGroup (h : readGroup cs = some (g, rest)) :
    ∃ ds, cs = ds ++ rest ∧ Group ds g := by
  rw [readGroup] at h
  split at h
  · cases h
  · rename_i digits after htake
    split at h
    · cases h
    · rename_i hlen
      cases h
      obtain ⟨rfl, hne, hdigits⟩ := exists_of_takeDigits htake
      exact ⟨digits, rfl, .digits hne (Nat.le_of_not_lt hlen) hdigits⟩

/-- A run is empty, or groups stand in front, after the colon that is due. -/
theorem groups_of_readGroups (limit : Nat) (first : Bool) (cs : List Char) :
    readGroups limit first cs = ⟨[], false, cs⟩ ∨
      ∃ front, (if first then some cs else dropChar ':' cs) =
          some (front ++ (readGroups limit first cs).rest) ∧
        Groups (readGroups limit first cs).dotted front (readGroups limit first cs).groups := by
  induction limit generalizing first cs with
  | zero => exact .inl rfl
  | succ limit ih =>
    rw [readGroups]
    split
    · exact .inl rfl
    · rename_i after hafter
      split
      · rename_i v4 rest hquad
        split at hquad
        · obtain ⟨rfl, -⟩ := IPv4.read_iff.1 hquad
          exact .inr ⟨v4.chars, hafter, .quad v4⟩
        · cases hquad
      · split
        · exact .inl rfl
        · rename_i g rest hgroup
          obtain ⟨ds, rfl, hds⟩ := group_of_readGroup hgroup
          refine .inr ?_
          rcases ih false rest with hnone | ⟨front, hfront, hgroups⟩
          · rw [hnone]
            exact ⟨ds, hafter, .last hds⟩
          · refine ⟨ds ++ ':' :: front, ?_, .cons hds hgroups⟩
            rw [hafter, List.append_assoc, List.cons_append, ← eq_of_dropChar hfront]

theorem side_of_readGroups (limit : Nat) (cs : List Char) :
    ∃ front, cs = front ++ (readGroups limit true cs).rest ∧
      Side (readGroups limit true cs).dotted front (readGroups limit true cs).groups := by
  rcases groups_of_readGroups limit true cs with hnone | ⟨front, hfront, hgroups⟩
  · rw [hnone]
    exact ⟨[], rfl, .nothing⟩
  · exact ⟨front, Option.some.inj hfront, .groups hgroups⟩

theorem length_readGroups_le (limit : Nat) (first : Bool) (cs : List Char) :
    (readGroups limit first cs).groups.length ≤ limit := by
  induction limit generalizing first cs with
  | zero => exact Nat.le_refl 0
  | succ limit ih =>
    rw [readGroups]
    split
    · exact Nat.zero_le _
    · split
      · rename_i hquad
        split at hquad
        · rename_i hpos
          exact Nat.succ_le_succ hpos
        · cases hquad
      · split
        · exact Nat.zero_le _
        · exact Nat.succ_le_succ (ih false _)

theorem groups_of_ofGroups? (h : ofGroups? gs = some x) : x.groups = gs := by
  rw [ofGroups?] at h
  split at h
  · cases h
    rfl
  · cases h

/-- Whatever is read of a text stands in front of it in one of its spellings. -/
theorem spells_of_read (h : read cs = some (x, rest)) :
    ∃ front, cs = front ++ rest ∧ Spells front x := by
  obtain ⟨left, hleft, hbefore⟩ := side_of_readGroups 8 cs
  have hle := length_readGroups_le 8 true cs
  rw [read] at h
  generalize readGroups 8 true cs = head at hleft hbefore hle h
  obtain ⟨before, dotted, middle⟩ := head
  dsimp only at hleft hbefore hle h
  split at h
  · obtain ⟨y, hy, hpair⟩ := Option.map_eq_some_iff.1 h
    cases hpair
    refine ⟨left, hleft, ?_⟩
    cases hbefore with
    | nothing => contradiction
    | groups hgroups =>
      rw [← groups_of_ofGroups? hy] at hgroups
      exact .full hgroups
  · split at h
    · cases h
    · rename_i hplain
      simp only [Option.bind_eq_bind, Option.bind_eq_some_iff] at h
      obtain ⟨r₁, hr₁, r₂, hr₂, y, hy, hpair⟩ := h
      cases hpair
      obtain ⟨right, hright, hafter⟩ := side_of_readGroups (7 - before.length) r₂
      have hfits := length_readGroups_le (7 - before.length) true r₂
      rw [Bool.not_eq_true] at hplain
      subst hplain
      refine ⟨left ++ ':' :: ':' :: right, ?_, .short hbefore hafter ?_ (groups_of_ofGroups? hy)⟩
      · rw [hleft, eq_of_dropChar hr₁, eq_of_dropChar hr₂]
        simp [← hright]
      · omega

end

end IPv6

namespace IpAddress

variable {cs : List Char}

theorem parseChars?_v4_iff {x : IPv4} : parseChars? cs = some (.v4 x) ↔ cs = x.chars := by
  constructor
  · intro h
    rw [parseChars?.eq_def] at h
    split at h
    · rename_i y hread
      cases h
      obtain ⟨hcs, -⟩ := IPv4.read_iff.1 hread
      rw [hcs, List.append_nil]
    · split at h <;> cases h
  · rintro rfl
    have hread : IPv4.read x.chars = some (x, []) :=
      IPv4.read_iff.2 ⟨(List.append_nil _).symm, noDigitFirst_nil 10⟩
    rw [parseChars?.eq_def, hread]

theorem parseChars?_v6_iff {x : IPv6} : parseChars? cs = some (.v6 x) ↔ IPv6.Spells cs x := by
  constructor
  · intro h
    rw [parseChars?.eq_def] at h
    split at h
    · cases h
    · split at h
      · rename_i y hread
        cases h
        obtain ⟨front, hcs, hspells⟩ := IPv6.spells_of_read hread
        rwa [hcs, List.append_nil]
      · cases h
  · intro h
    have hread : IPv6.read cs = some (x, []) := by
      have hread := IPv6.read_of_spells h IPv6.ends_nil
      rwa [List.append_nil] at hread
    -- The quad is tried first, but it has no colons.
    rw [parseChars?.eq_def]
    split
    · rename_i y hquad
      have hcolon : ':' ∈ cs :=
        List.count_pos_iff.1 (Nat.lt_of_lt_of_le (by decide) (IPv6.two_le_count_of_read hread))
      exact absurd hcolon (IPv4.not_mem_of_read hquad (by decide) (by decide))
    · rw [hread]

end IpAddress
end ResolverRace
