import LibreSwitch.Net.HttpDownloader

/-!
# The two URL parsers

The enrollment and the downloader take a URL apart with a parser each, copied by hand from one to
the other. Behind the scheme a URL is a host, an optional port behind a colon and an optional path
from a slash on (`UrlParts`); every text is one in exactly one way (`UrlParts.exists_render`,
`UrlParts.render_injective`). Both parsers find these parts, and read the port with `atoi` and
without a look at what it is.

`Denotes` says which host, port and path a URL stands for. A URL that stands for a target is parsed
to it, and the parsers agree on every text. But a text whose port is no number between 1 and 65535,
or whose host is empty, stands for nothing and is accepted all the same (`exact_iff`).
-/

set_option autoImplicit false
set_option relaxedAutoImplicit false

namespace LibreSwitch.Net

open LibreSwitch.Library

/-! ### The parts of a URL -/

/-- What is behind the scheme: the host, the text behind a colon and the text behind the first
slash. -/
@[ext]
structure UrlParts where
  host : Bytes
  port : Option Bytes
  path : Option Bytes
  colon_notMem_host : (58 : UInt8) ∉ host
  slash_notMem_host : (47 : UInt8) ∉ host
  slash_notMem_port : ∀ text ∈ port, (47 : UInt8) ∉ text

namespace UrlParts

variable (parts : UrlParts)

def portText : Bytes := parts.port.elim [] (58 :: ·)

def pathText : Bytes := parts.path.elim [] (47 :: ·)

/-- The text that has these parts. -/
def render : Bytes := parts.host ++ parts.portText ++ parts.pathText

/-- The path that is asked for. -/
def target : Bytes := parts.path.elim (ascii "/") (47 :: ·)

theorem slash_notMem_authority : (47 : UInt8) ∉ parts.host ++ parts.portText := by
  rw [List.mem_append, not_or]
  refine ⟨parts.slash_notMem_host, ?_⟩
  rw [portText]
  cases hport : parts.port with
  | none => exact List.not_mem_nil
  | some text =>
    have htext := parts.slash_notMem_port text hport
    simpa using htext

/-- The host and the port are what stands in front of the first slash. -/
theorem takeWhile_render :
    parts.render.takeWhile (· ≠ 47) = parts.host ++ parts.portText := by
  rw [render, pathText]
  cases parts.path with
  | none =>
    rw [Option.elim_none, List.append_nil, takeWhile_ne_of_notMem parts.slash_notMem_authority]
  | some behind => exact takeWhile_ne_append_cons parts.slash_notMem_authority behind

theorem strchr_slash_render :
    strchr 47 parts.render = parts.path.map (47 :: ·) := by
  rw [render, pathText]
  cases parts.path with
  | none =>
    rw [Option.elim_none, List.append_nil, strchr_of_notMem parts.slash_notMem_authority]
    rfl
  | some behind => exact strchr_append_cons parts.slash_notMem_authority behind

theorem strchr_colon_authority :
    strchr 58 (parts.host ++ parts.portText) = parts.port.map (58 :: ·) := by
  rw [portText]
  cases parts.port with
  | none =>
    rw [Option.elim_none, List.append_nil, strchr_of_notMem parts.colon_notMem_host]
    rfl
  | some text => exact strchr_append_cons parts.colon_notMem_host text

/-- The first colon is the one of the port, or else one of the path. -/
theorem strchr_colon_render : strchr 58 parts.render =
    parts.port.elim (strchr 58 parts.pathText) fun text ↦
      some (58 :: (text ++ parts.pathText)) := by
  rw [render, portText]
  cases parts.port with
  | none =>
    rw [Option.elim_none, Option.elim_none, List.append_nil,
      strchr_append_of_notMem parts.colon_notMem_host]
  | some text =>
    rw [Option.elim_some, Option.elim_some, List.append_assoc, List.cons_append,
      strchr_append_cons parts.colon_notMem_host]

theorem take_host : parts.render.take parts.host.length = parts.host := by
  rw [render, List.append_assoc]
  exact List.take_left' rfl

/-- The host ends where what is behind it begins. -/
theorem length_sub_behind {behind : Bytes} (hrender : parts.render = parts.host ++ behind) :
    parts.render.length - behind.length = parts.host.length := by
  rw [hrender, List.length_append, Nat.add_sub_cancel]

/-- Every text has parts. -/
theorem exists_render (rest : Bytes) : ∃ parts : UrlParts, parts.render = rest := by
  obtain ⟨authority, path, hslash, hrest⟩ : ∃ (authority : Bytes) (path : Option Bytes),
      (47 : UInt8) ∉ authority ∧ authority ++ path.elim [] (47 :: ·) = rest := by
    by_cases hmem : (47 : UInt8) ∈ rest
    · obtain ⟨authority, behind, rfl, hslash⟩ := List.eq_append_cons_of_mem hmem
      exact ⟨authority, some behind, hslash, rfl⟩
    · exact ⟨rest, none, hmem, List.append_nil rest⟩
  by_cases hmem : (58 : UInt8) ∈ authority
  · obtain ⟨host, text, rfl, hcolon⟩ := List.eq_append_cons_of_mem hmem
    rw [List.mem_append, List.mem_cons, not_or, not_or] at hslash
    exact ⟨⟨host, some text, path, hcolon, hslash.1, by
      rintro _ ⟨⟩
      exact hslash.2.2⟩, hrest⟩
  · exact ⟨⟨authority, none, path, hmem, hslash, by rintro _ ⟨⟩⟩, by
      rw [← hrest, render, portText, Option.elim_none, List.append_nil]
      rfl⟩

/-- A text has its parts in one way only. -/
theorem render_injective : Function.Injective render := by
  intro first second hsame
  have hauthority := congrArg (List.takeWhile (· ≠ 47)) hsame
  rw [takeWhile_render, takeWhile_render] at hauthority
  have hpath : first.path = second.path := by
    have hslash := congrArg (strchr 47) hsame
    rw [strchr_slash_render, strchr_slash_render] at hslash
    exact Option.map_injective (List.cons_injective) hslash
  have hcolon := congrArg (strchr 58) hauthority
  rw [strchr_colon_authority, strchr_colon_authority] at hcolon
  have hports : first.port = second.port := Option.map_injective List.cons_injective hcolon
  rw [portText, portText, hports, List.append_cancel_right_eq] at hauthority
  exact UrlParts.ext hauthority hports hpath

/-- The port that is read: the cast of whatever `atoi` makes of the text behind the colon. -/
def portOf (port : UInt16) : UInt16 :=
  parts.port.elim port fun text ↦ UInt16.ofInt (atoi (text ++ parts.pathText))

/-- What a parser makes of the parts with buffers of these sizes. -/
def taken (port : UInt16) (hostCap pathCap : ℕ) : Option (Bytes × UInt16 × Bytes) :=
  if parts.host.length + 1 > hostCap then none
  else if parts.target.length + 1 > pathCap then none
  else some (parts.host, parts.portOf port, parts.target)

end UrlParts

/-- The parser of the enrollment finds the parts. -/
theorem HttpEnrollment.parseAuthority_render (parts : UrlParts) (port : UInt16)
    (hostCap pathCap : ℕ) : HttpEnrollment.parseAuthority parts.render port hostCap pathCap =
      parts.taken port hostCap pathCap := by
  rw [HttpEnrollment.parseAuthority, parts.takeWhile_render, parts.strchr_slash_render,
    parts.strchr_colon_authority, parts.strchr_colon_render, UrlParts.taken, UrlParts.portOf,
    UrlParts.target, UrlParts.portText]
  cases parts.port with
  | none =>
    rw [Option.elim_none, List.append_nil]
    cases parts.path with
    | none => rfl
    | some behind => rfl
  | some text =>
    rw [Option.elim_some, takeWhile_ne_append_cons parts.colon_notMem_host]
    cases parts.path with
    | none => rfl
    | some behind => rfl

/-- So does the parser of the downloader. -/
theorem HttpDownloader.parseAuthority_render (parts : UrlParts) (port : UInt16) :
    HttpDownloader.parseAuthority parts.render port = parts.taken port 128 256 := by
  have hend : (parts.path.map (47 :: ·)).getD [] = parts.pathText := by
    rw [UrlParts.pathText]
    cases parts.path with
    | none => rfl
    | some behind => rfl
  rw [HttpDownloader.parseAuthority, parts.strchr_slash_render, hend, parts.strchr_colon_render,
    UrlParts.taken, UrlParts.portOf, UrlParts.target]
  cases hport : parts.port with
  | none =>
    have hhost : parts.render.length - parts.pathText.length = parts.host.length :=
      parts.length_sub_behind (by
        rw [UrlParts.render, UrlParts.portText, hport, Option.elim_none, List.append_nil])
    rw [Option.elim_none, Option.elim_none, hhost]
    cases hcolon : strchr 58 parts.pathText with
    | none =>
      dsimp only
      rw [parts.take_host]
      cases parts.path with
      | none => rfl
      | some behind => rfl
    | some colon =>
      -- this colon is behind the slash
      have hlater : ¬ parts.pathText.length < colon.length :=
        Nat.not_lt_of_le (suffix_of_strchr hcolon).length_le
      dsimp only
      rw [if_neg hlater]
      dsimp only
      rw [parts.take_host]
      cases parts.path with
      | none => rfl
      | some behind => rfl
  | some text =>
    have hhost : parts.render.length - (58 :: (text ++ parts.pathText)).length =
        parts.host.length :=
      parts.length_sub_behind (by
        rw [UrlParts.render, UrlParts.portText, hport, Option.elim_some, List.append_assoc,
          List.cons_append])
    have hcolon : parts.pathText.length < (58 :: (text ++ parts.pathText)).length := by
      rw [List.length_cons, List.length_append]
      omega
    rw [Option.elim_some, Option.elim_some]
    dsimp only
    rw [if_pos hcolon, hhost]
    dsimp only
    rw [parts.take_host]
    cases parts.path with
    | none => rfl
    | some behind => rfl

/-! ### The schemes -/

/-- The schemes with their ports. -/
def schemes : List (Bytes × UInt16) := [(ascii "https://", 443), (ascii "http://", 80)]

/-- What both parsers do in front of the authority. -/
def behindScheme {α : Type} (parse : Bytes → UInt16 → Option α) (url : Bytes) : Option α :=
  if (ascii "https://").isPrefixOf url then parse (url.drop 8) 443
  else if (ascii "http://").isPrefixOf url then parse (url.drop 7) 80
  else none

theorem behindScheme_append {α : Type} (parse : Bytes → UInt16 → Option α)
    {scheme : Bytes × UInt16} (hscheme : scheme ∈ schemes) (rest : Bytes) :
    behindScheme parse (scheme.1 ++ rest) = parse rest scheme.2 := by
  rcases List.mem_pair.mp hscheme with rfl | rfl
  · rfl
  · rfl

theorem behindScheme_eq_some_iff {α : Type} {parse : Bytes → UInt16 → Option α} {url : Bytes}
    {result : α} : behindScheme parse url = some result ↔
      ∃ scheme ∈ schemes, ∃ rest, url = scheme.1 ++ rest ∧ parse rest scheme.2 = some result := by
  constructor
  · intro hparse
    have hscheme : ∃ scheme ∈ schemes, scheme.1 <+: url := by
      unfold behindScheme at hparse
      split_ifs at hparse with hhttps hhttp
      · exact ⟨_, List.mem_cons_self .., List.isPrefixOf_iff_prefix.mp hhttps⟩
      · exact ⟨_, List.mem_cons_of_mem _ (List.mem_cons_self ..),
          List.isPrefixOf_iff_prefix.mp hhttp⟩
    obtain ⟨scheme, hscheme, rest, rfl⟩ := hscheme
    rw [behindScheme_append parse hscheme] at hparse
    exact ⟨scheme, hscheme, rest, rfl, hparse⟩
  · rintro ⟨scheme, hscheme, rest, rfl, hparse⟩
    rwa [behindScheme_append parse hscheme]

/-- No URL has two schemes, or two ways to be taken apart behind its scheme. -/
theorem scheme_append_injective {scheme scheme' : Bytes × UInt16} (hscheme : scheme ∈ schemes)
    (hscheme' : scheme' ∈ schemes) {rest rest' : Bytes}
    (hsame : scheme.1 ++ rest = scheme'.1 ++ rest') : scheme = scheme' ∧ rest = rest' := by
  have hparse := behindScheme_append (fun rest port ↦ some (rest, port)) hscheme rest
  rw [hsame, behindScheme_append _ hscheme', Option.some.injEq, Prod.mk.injEq] at hparse
  obtain ⟨hrest, hport⟩ := hparse
  have hfirst : scheme.1 = scheme'.1 := by
    rw [hrest, List.append_cancel_right_eq] at hsame
    exact hsame
  exact ⟨Prod.ext hfirst hport.symm, hrest.symm⟩

/-- A parser that finds the parts of what is behind the scheme finds them in a URL. -/
theorem behindScheme_eq_some_iff_parts {α : Type} {parse : Bytes → UInt16 → Option α}
    {found : UrlParts → UInt16 → Option α}
    (hfound : ∀ parts port, parse parts.render port = found parts port) {url : Bytes} {result : α} :
    behindScheme parse url = some result ↔ ∃ scheme ∈ schemes, ∃ parts : UrlParts,
      url = scheme.1 ++ parts.render ∧ found parts scheme.2 = some result := by
  rw [behindScheme_eq_some_iff]
  refine exists_congr fun scheme ↦ and_congr_right fun _ ↦ ⟨?_, ?_⟩
  · rintro ⟨rest, hurl, hparse⟩
    obtain ⟨parts, rfl⟩ := UrlParts.exists_render rest
    exact ⟨parts, hurl, (hfound parts _).symm.trans hparse⟩
  · rintro ⟨parts, hurl, hparse⟩
    exact ⟨parts.render, hurl, (hfound parts _).trans hparse⟩

/-- What the enrollment makes of a URL. -/
theorem HttpEnrollment.parseUrl_eq_some_iff {url : Bytes} {hostCap pathCap : ℕ}
    {target : Bytes × UInt16 × Bytes} :
    HttpEnrollment.parseUrl url hostCap pathCap = some target ↔
      ∃ scheme ∈ schemes, ∃ parts : UrlParts,
        url = scheme.1 ++ parts.render ∧ parts.taken scheme.2 hostCap pathCap = some target :=
  @behindScheme_eq_some_iff_parts _
    (fun rest port ↦ HttpEnrollment.parseAuthority rest port hostCap pathCap)
    (fun parts port ↦ parts.taken port hostCap pathCap)
    (fun parts port ↦ HttpEnrollment.parseAuthority_render parts port hostCap pathCap) url target

/-- What the downloader makes of a URL. -/
theorem HttpDownloader.parseUrl_eq_some_iff {url : Bytes} {target : Bytes × UInt16 × Bytes} :
    HttpDownloader.parseUrl url = some target ↔
      ∃ scheme ∈ schemes, ∃ parts : UrlParts,
        url = scheme.1 ++ parts.render ∧ parts.taken scheme.2 128 256 = some target :=
  @behindScheme_eq_some_iff_parts _ HttpDownloader.parseAuthority
    (fun parts port ↦ parts.taken port 128 256) HttpDownloader.parseAuthority_render url target

/-! ### What a URL stands for -/

namespace UrlParts

variable (parts : UrlParts)

/-- The port is the one of the scheme, or a number that is spelled out. -/
def StatesPort (default port : UInt16) : Prop :=
  match parts.port with
  | none => port = default
  | some text => Spells text port.toNat ∧ 0 < port.toNat

/-- The host is not empty, and the port, if there is one, is a number between 1 and 65535. -/
structure WellFormed : Prop where
  host_ne_nil : parts.host ≠ []
  port_spells : ∀ text ∈ parts.port, ∃ n, Spells text n ∧ 0 < n ∧ n < 65536

variable {parts}

theorem taken_eq_some_iff {port : UInt16} {hostCap pathCap : ℕ}
    {target : Bytes × UInt16 × Bytes} :
    parts.taken port hostCap pathCap = some target ↔
      parts.host.length < hostCap ∧ parts.target.length < pathCap ∧
        target = (parts.host, parts.portOf port, parts.target) := by
  rw [taken]
  by_cases hhost : parts.host.length + 1 > hostCap
  · rw [if_pos hhost]
    exact iff_of_false (Option.some_ne_none target).symm fun hboth ↦ absurd hboth.1 (by omega)
  rw [if_neg hhost]
  by_cases hpath : parts.target.length + 1 > pathCap
  · rw [if_pos hpath]
    exact iff_of_false (Option.some_ne_none target).symm fun hboth ↦ absurd hboth.2.1 (by omega)
  · rw [if_neg hpath, Option.some.injEq, eq_comm]
    exact ⟨fun heq ↦ ⟨by omega, by omega, heq⟩, fun hboth ↦ hboth.2.2⟩

/-- A port that is spelled out is read as it is. -/
theorem portOf_eq {default port : UInt16} (hstates : parts.StatesPort default port) :
    parts.portOf default = port := by
  rw [StatesPort] at hstates
  rw [portOf]
  cases hport : parts.port with
  | none =>
    rw [hport] at hstates
    exact hstates.symm
  | some text =>
    rw [hport] at hstates
    have hstop : ∀ byte ∈ parts.pathText.head?, isDigit byte = false := by
      rw [pathText]
      cases parts.path with
      | none => rintro _ ⟨⟩
      | some behind =>
        rintro _ ⟨⟩
        rfl
    have hport16 : (((port.toNat : ℤ) % 2 ^ 16).toNat) = port.toNat := by
      have hlt := port.toNat_lt
      omega
    rw [Option.elim_some, atoi_of_spells hstates.1 hstop, UInt16.ofInt, hport16,
      UInt16.ofNat_toNat]

/-- The parts are well-formed if the port that is read is one they state. -/
theorem wellFormed_iff (default : UInt16) : parts.WellFormed ↔
    parts.host ≠ [] ∧ parts.StatesPort default (parts.portOf default) := by
  constructor
  · rintro ⟨hhost, hport⟩
    obtain ⟨port, hstates⟩ : ∃ port, parts.StatesPort default port := by
      cases htext : parts.port with
      | none => exact ⟨default, by rw [StatesPort, htext]⟩
      | some text =>
        obtain ⟨n, hspells, hpos, hlt⟩ := hport text htext
        have hn : (UInt16.ofNat n).toNat = n := UInt16.toNat_ofNat_of_lt hlt
        refine ⟨UInt16.ofNat n, ?_⟩
        rw [StatesPort, htext, hn]
        exact ⟨hspells, hpos⟩
    rw [portOf_eq hstates]
    exact ⟨hhost, hstates⟩
  · rintro ⟨hhost, hstates⟩
    refine ⟨hhost, fun text htext ↦ ⟨(parts.portOf default).toNat, ?_⟩⟩
    rw [StatesPort, htext] at hstates
    exact ⟨hstates.1, hstates.2, (parts.portOf default).toNat_lt⟩

end UrlParts

/-- What a URL stands for: a scheme, a host that is not empty, the port of the scheme or one
between 1 and 65535 in decimal digits, and a path from a slash on, which is the slash alone if none
is given. -/
def Denotes (url : Bytes) (target : Bytes × UInt16 × Bytes) : Prop :=
  ∃ scheme ∈ schemes, ∃ parts : UrlParts, url = scheme.1 ++ parts.render ∧ parts.host ≠ [] ∧
    parts.host = target.1 ∧ parts.StatesPort scheme.2 target.2.1 ∧ parts.target = target.2.2

/-- A URL that the downloader has the buffers for is one with a host and a port. -/
def Sensible (url : Bytes) : Prop :=
  ∀ scheme ∈ schemes, ∀ parts : UrlParts, url = scheme.1 ++ parts.render →
    parts.host.length < 128 → parts.target.length < 256 → parts.WellFormed

/-- The URL with this host, port and path. -/
def written (scheme host : Bytes) (port : UInt16) (path : Bytes) : Bytes :=
  scheme ++ (host ++ 58 :: decimal port.toNat ++ 47 :: path)

/-- What both parsers should make of a URL: they agree, what they accept is what the URL stands for,
a URL that stands for a target within the buffers is accepted, and one that was written out from a
host, a port and a path is parsed back to them. -/
structure Exact (url : Bytes) : Prop where
  agree : ∀ target, HttpEnrollment.parseUrl url 128 160 = some target ↔
    HttpDownloader.parseUrl url = some target ∧ target.2.2.length < 160
  sound : ∀ target, HttpDownloader.parseUrl url = some target → Denotes url target
  complete : ∀ target, Denotes url target → target.1.length < 128 → target.2.2.length < 256 →
    HttpDownloader.parseUrl url = some target
  roundTrip : ∀ scheme ∈ schemes, ∀ host port path, host ≠ [] → (58 : UInt8) ∉ host →
    (47 : UInt8) ∉ host → 0 < port.toNat → host.length < 128 → path.length + 1 < 256 →
      url = written scheme.1 host port path →
        HttpDownloader.parseUrl url = some (host, port, 47 :: path)

/-- A URL written out in full stands for what was written. -/
theorem denotes_written {scheme : Bytes × UInt16} (hscheme : scheme ∈ schemes) {host path : Bytes}
    {port : UInt16} (hhost : host ≠ []) (hcolon : (58 : UInt8) ∉ host)
    (hslash : (47 : UInt8) ∉ host) (hport : 0 < port.toNat) :
    Denotes (written scheme.1 host port path) (host, port, 47 :: path) := by
  have hdigits : (47 : UInt8) ∉ decimal port.toNat := by
    intro hmem
    exact absurd (isDigit_of_mem_decimal hmem) (by decide)
  exact ⟨scheme, hscheme, ⟨host, some (decimal port.toNat), some path, hcolon, hslash, by
    rintro _ ⟨⟩
    exact hdigits⟩, rfl, hhost, rfl, ⟨spells_decimal _, hport⟩, rfl⟩

/-- The parsers agree. -/
theorem parsers_agree (url : Bytes) (target : Bytes × UInt16 × Bytes) :
    HttpEnrollment.parseUrl url 128 160 = some target ↔
      HttpDownloader.parseUrl url = some target ∧ target.2.2.length < 160 := by
  rw [HttpEnrollment.parseUrl_eq_some_iff, HttpDownloader.parseUrl_eq_some_iff]
  constructor
  · rintro ⟨scheme, hscheme, parts, hurl, htaken⟩
    obtain ⟨hhost, hpath, rfl⟩ := UrlParts.taken_eq_some_iff.mp htaken
    exact ⟨⟨scheme, hscheme, parts, hurl,
      UrlParts.taken_eq_some_iff.mpr ⟨hhost, hpath.trans (by decide), rfl⟩⟩, hpath⟩
  · rintro ⟨⟨scheme, hscheme, parts, hurl, htaken⟩, hshort⟩
    obtain ⟨hhost, -, rfl⟩ := UrlParts.taken_eq_some_iff.mp htaken
    exact ⟨scheme, hscheme, parts, hurl, UrlParts.taken_eq_some_iff.mpr ⟨hhost, hshort, rfl⟩⟩

/-- A URL that stands for a target within the buffers is parsed to it. -/
theorem parseUrl_of_denotes {url : Bytes} {target : Bytes × UInt16 × Bytes}
    (hdenotes : Denotes url target) (hhost : target.1.length < 128)
    (hpath : target.2.2.length < 256) : HttpDownloader.parseUrl url = some target := by
  obtain ⟨scheme, hscheme, parts, hurl, -, hsame, hport, htarget⟩ := hdenotes
  refine HttpDownloader.parseUrl_eq_some_iff.mpr ⟨scheme, hscheme, parts, hurl,
    UrlParts.taken_eq_some_iff.mpr ⟨?_, ?_, ?_⟩⟩
  · rwa [hsame]
  · rwa [htarget]
  · rw [hsame, htarget, UrlParts.portOf_eq hport]

/-- What the downloader accepts is what the URL stands for exactly if it has a host and a port. -/
theorem sound_iff (url : Bytes) :
    (∀ target, HttpDownloader.parseUrl url = some target → Denotes url target) ↔
      Sensible url := by
  constructor
  · intro hsound scheme hscheme parts hurl hhost hpath
    have htaken := UrlParts.taken_eq_some_iff.mpr
      ⟨hhost, hpath, (rfl : (parts.host, parts.portOf scheme.2, parts.target) = _)⟩
    have hparse := HttpDownloader.parseUrl_eq_some_iff.mpr ⟨scheme, hscheme, parts, hurl, htaken⟩
    obtain ⟨scheme', hscheme', parts', hurl', hne, -, hport, -⟩ := hsound _ hparse
    obtain ⟨rfl, hrender⟩ := scheme_append_injective hscheme hscheme' (hurl.symm.trans hurl')
    obtain rfl := UrlParts.render_injective hrender
    exact (UrlParts.wellFormed_iff scheme.2).mpr ⟨hne, hport⟩
  · intro hsensible target hparse
    obtain ⟨scheme, hscheme, parts, hurl, htaken⟩ := HttpDownloader.parseUrl_eq_some_iff.mp hparse
    obtain ⟨hhost, hpath, rfl⟩ := UrlParts.taken_eq_some_iff.mp htaken
    obtain ⟨hne, hport⟩ :=
      (UrlParts.wellFormed_iff scheme.2).mp (hsensible scheme hscheme parts hurl hhost hpath)
    exact ⟨scheme, hscheme, parts, hurl, hne, rfl, hport, rfl⟩

/-- The parsers are exact for a URL if and only if it has a host and its port, if it has one, is a
number between 1 and 65535, or it does not fit. -/
theorem exact_iff (url : Bytes) : Exact url ↔ Sensible url := by
  constructor
  · exact fun hexact ↦ (sound_iff url).mp hexact.sound
  · intro hsensible
    refine ⟨parsers_agree url, (sound_iff url).mpr hsensible, fun target ↦ parseUrl_of_denotes, ?_⟩
    rintro scheme hscheme host port path hne hcolon hslash hport hhost hpath rfl
    exact parseUrl_of_denotes (denotes_written hscheme hne hcolon hslash hport) hhost hpath

/-- A port beyond 65535 is taken for another one. -/
theorem not_exact_port : (0 : UInt8) ∉ ascii "http://h:65537/" ∧
    HttpDownloader.parseUrl (ascii "http://h:65537/") = some (ascii "h", 1, ascii "/") ∧
    HttpEnrollment.parseUrl (ascii "http://h:65537/") 128 160 =
      some (ascii "h", 1, ascii "/") ∧
    ¬ Exact (ascii "http://h:65537/") := by
  refine ⟨by decide, by decide, by decide, fun hexact ↦ ?_⟩
  have hsensible := (sound_iff _).mp hexact.sound
  have hwell := hsensible (ascii "http://", 80) (List.mem_cons_of_mem _ (List.mem_cons_self ..))
    ⟨ascii "h", some (ascii "65537"), some [], by decide, by decide, by
      rintro _ ⟨⟩
      decide⟩ (by decide) (by decide) (by decide)
  obtain ⟨n, hspells, -, hlt⟩ := hwell.port_spells (ascii "65537") rfl
  have hvalue : decimalValue (ascii "65537") = 65537 := by decide
  rw [← hspells.value_eq, hvalue] at hlt
  exact absurd hlt (by decide)

end LibreSwitch.Net
