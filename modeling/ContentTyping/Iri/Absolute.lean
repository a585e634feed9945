import ContentTyping.Iri.Loose

/-!
# Absolute IRIs

The full grammar of an absolute IRI: a scheme, an optional authority with a user, a host and a
service number, a path, and optional query and fragment. A percent sign must begin a
percent-encoded byte.
-/

namespace ContentTyping.Iri

/-! ## Character classes -/

/-- Letters, digits and marks that stand for themselves anywhere, and the delimiters that parts
of an IRI may use, without the characters above ASCII. -/
def isPlain (c : Char) : Bool :=
  c.isAlphanum || "!$&'()*+,-.;=_~".toList.contains c

/-- Characters above ASCII that an IRI may contain. -/
def isUniversal (c : Char) : Bool :=
  let n := c.toNat
  (0xA0 ≤ n && n ≤ 0xD7FF) || (0xF900 ≤ n && n ≤ 0xFDCF) || (0xFDF0 ≤ n && n ≤ 0xFFEF) ||
    (0x10000 ≤ n && n ≤ 0xDFFFD && n % 0x10000 ≤ 0xFFFD) ||
    (0xE1000 ≤ n && n ≤ 0xEFFFD)

/-- Private characters, which only a query may contain. -/
def isPrivate (c : Char) : Bool :=
  let n := c.toNat
  (0xE000 ≤ n && n ≤ 0xF8FF) || (0xF0000 ≤ n && n ≤ 0xFFFFD) ||
    (0x100000 ≤ n && n ≤ 0x10FFFD)

/-- A character of a host name. -/
def isHostChar (c : Char) : Bool :=
  isPlain c || isUniversal c

/-- A character of the user part. -/
def isUserChar (c : Char) : Bool :=
  isHostChar c || c = ':'

/-- A character of a path. -/
def isPathChar (c : Char) : Bool :=
  isHostChar c || c = ':' || c = '@' || c = '/'

/-- A character of a fragment. -/
def isFragmentChar (c : Char) : Bool :=
  isPathChar c || c = '?'

/-- A character of a query. -/
def isQueryChar (c : Char) : Bool :=
  isFragmentChar c || isPrivate c

/-- A text of characters of a class and of percent-encoded bytes. -/
def allEncoded (inClass : Char → Bool) : List Char → Bool
  | [] => true
  | '%' :: high :: low :: rest =>
    Text.isHexDigit high && Text.isHexDigit low && allEncoded inClass rest
  | c :: rest => c ≠ '%' && inClass c && allEncoded inClass rest

/-! ## Addresses of hosts -/

/-- One of the four numbers of an IPv4 address: at most 255, without leading zeros. -/
def isByteNumber (digits : List Char) : Bool :=
  !digits.isEmpty && digits.length ≤ 3 && digits.all Char.isDigit &&
    (digits.length = 1 || digits.head? ≠ some '0') &&
    digits.foldl (fun value digit => value * 10 + (digit.toNat - 48)) 0 ≤ 255

/-- Four numbers with points between them. -/
def isIPv4 (text : List Char) : Bool :=
  let parts := Text.pieces '.' text
  parts.length = 4 && parts.all isByteNumber

/-- One to four hexadecimal digits. -/
def isGroup (digits : List Char) : Bool :=
  !digits.isEmpty && digits.length ≤ 4 && digits.all Text.isHexDigit

/-- The number of 16-bit groups in a row of groups with colons between them, the last of which
may be an IPv4 address in place of two groups. -/
def countGroups? (text : List Char) : Option Nat :=
  if text.isEmpty then some 0
  else
    let parts := Text.pieces ':' text
    let leading := parts.dropLast
    match parts.getLast? with
    | none => none
    | some last =>
      if leading.all isGroup then
        if isGroup last then some parts.length
        else if isIPv4 last then some (parts.length + 1)
        else none
      else none

/-- The texts before and after the first double colon. -/
def splitDoubleColon? : List Char → Option (List Char × List Char)
  | ':' :: ':' :: rest => some ([], rest)
  | c :: rest => (splitDoubleColon? rest).map fun parts => (c :: parts.1, parts.2)
  | [] => none

/-- Eight groups, or fewer with a double colon in the place of at least one group. An IPv4 part
can only be the end of the address. -/
def isIPv6 (text : List Char) : Bool :=
  match splitDoubleColon? text with
  | none => countGroups? text = some 8
  | some (before, after) =>
    (before.isEmpty || (Text.pieces ':' before).all isGroup) &&
      match countGroups? before, countGroups? after with
      | some first, some second => first + second ≤ 7
      | _, _ => false

/-- An address of a later version: `v`, hexadecimal digits, a point, and plain characters or
colons. -/
def isFutureAddress : List Char → Bool
  | [] => false
  | first :: rest =>
    (first = 'v' || first = 'V') &&
      match rest.dropWhile Text.isHexDigit with
      | '.' :: body =>
        rest.head? ≠ some '.' && !body.isEmpty && body.all fun c => isPlain c || c = ':'
      | _ => false

/-! ## Parts of an IRI -/

/-- A host name, or an address in brackets, with an optional service number. -/
def isHostService (text : List Char) : Bool :=
  match text with
  | '[' :: rest =>
    let address := rest.takeWhile (· ≠ ']')
    (isFutureAddress address || isIPv6 address) &&
      match rest.dropWhile (· ≠ ']') with
      | [']'] => true
      | ']' :: ':' :: number => number.all Char.isDigit
      | _ => false
  | _ =>
    allEncoded isHostChar (text.takeWhile (· ≠ ':')) &&
      ((text.dropWhile (· ≠ ':')).drop 1).all Char.isDigit

/-- A host and its service, after an optional user part that ends with the first at sign. -/
def isAuthority (text : List Char) : Bool :=
  match text.dropWhile (· ≠ '@') with
  | '@' :: host => allEncoded isUserChar (text.takeWhile (· ≠ '@')) && isHostService host
  | _ => isHostService text

/-- The end of an authority or the beginning of a path, query or fragment. -/
def endsAuthority (c : Char) : Bool :=
  c = '/' || c = '?' || c = '#'

/-- An authority after the double slash, or else a path. -/
def isHierarchy : List Char → Bool
  | '/' :: '/' :: rest =>
    isAuthority (rest.takeWhile (!endsAuthority ·)) &&
      allEncoded isPathChar (rest.dropWhile (!endsAuthority ·))
  | path => allEncoded isPathChar path

/-- A query, without its question mark; no query is fine. -/
def isQuery : List Char → Bool
  | '?' :: query => allEncoded isQueryChar query
  | rest => rest.isEmpty

/-- A fragment, without its number sign; no fragment is fine. -/
def isFragment : List Char → Bool
  | '#' :: fragment => allEncoded isFragmentChar fragment
  | rest => rest.isEmpty

/-- An absolute IRI. -/
def isAbsolute (value : String) : Bool :=
  match afterScheme? value.toList with
  | none => false
  | some body =>
    let beforeFragment := body.takeWhile (· ≠ '#')
    isHierarchy (beforeFragment.takeWhile (· ≠ '?')) &&
      isQuery (beforeFragment.dropWhile (· ≠ '?')) &&
      isFragment (body.dropWhile (· ≠ '#'))

end ContentTyping.Iri
