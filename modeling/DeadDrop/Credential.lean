import DeadDrop.Text.Hex
import DeadDrop.Text.Utf8
import DeadDrop.Sha256

/-!
# Credentials

Whoever holds an upload key may write one record, and whoever holds its download key may read it.
An upload key is 256 bits in hexadecimal; its download key is the SHA-256 digest of the lower-cased
digits, in hexadecimal too. Shown to people, the two carry the tags `u_` and `d_`; a tag is taken
off, once, before a key is used.
-/

namespace DeadDrop.Credential

inductive KeyError where
  | notAKey
  | badLength (length : Nat)
  deriving DecidableEq, Repr

def KeyError.message : KeyError → Text
  | .notAKey => "uploadKey must be a 256 bit hex string".toList
  | .badLength length => "invalid upload key length: ".toList ++ Text.ofNat length

/-- The number of bytes of an upload key. -/
def keyBytes : Nat := 32

/-- The tag of upload keys. -/
def uploadTag : Text := ['u', '_']

/-- The tag of download keys. -/
def downloadTag : Text := ['d', '_']

def tagUpload (key : Text) : Text := uploadTag ++ key

def tagDownload (key : Text) : Text := downloadTag ++ key

def untagUpload (key : Text) : Text := key.withoutStart uploadTag

def untagDownload (key : Text) : Text := key.withoutStart downloadTag

/-- The one spelling under which a download key is looked up: untagged and in lower case. -/
def normalizeDownload (key : Text) : Text := (untagDownload key).lowerCase

def uploadKeyOf (random : Bytes) : Text := Hex.encode random

/-- Accepts 256 bits of hexadecimal, in any case and with or without the tag. -/
def validate (upload : Text) : Except KeyError Unit :=
  match Hex.decode? (untagUpload upload).lowerCase with
  | some bytes => if bytes.length = keyBytes then .ok () else .error .notAKey
  | none => .error .notAKey

/-- The download key of an upload key. A text that is no key is refused with its length, counted in
UTF-8 bytes and without the tag. -/
def derive (upload : Text) : Except KeyError Text :=
  let key := (untagUpload upload).lowerCase
  let refused : Except KeyError Text := .error (.badLength (Text.toUtf8 key).length)
  match Hex.decode? key with
  | some bytes =>
    if bytes.length = keyBytes then .ok (Hex.encode (Sha256.digest (Text.toUtf8 key))) else refused
  | none => refused

end DeadDrop.Credential
