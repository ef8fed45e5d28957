import MessagingIdentity.Digest.Combined
import MessagingIdentity.Digest.Keccak256
import MessagingIdentity.Json.Parser
import MessagingIdentity.Json.Printer
import MessagingIdentity.Text.Quoted
import MessagingIdentity.Text.Blank
import MessagingIdentity.Text.Decimal
import MessagingIdentity.Encoding.Base58
import MessagingIdentity.Encoding.Base64
import MessagingIdentity.Encoding.Hexadecimal
import MessagingIdentity.Arithmetic.Entropy
import MessagingIdentity.Arithmetic.Primality
import MessagingIdentity.Curve.Ecdsa
import MessagingIdentity.Asn1.Pem
import MessagingIdentity.Rsa.Encoding
import MessagingIdentity.Rsa.Padding
import MessagingIdentity.Rsa.Generation
import MessagingIdentity.Aes.Chaining
import MessagingIdentity.Key.Matching
import MessagingIdentity.Key.Registry
import MessagingIdentity.Identifier.Basic
import MessagingIdentity.Meta.Memo
import MessagingIdentity.Session
import MessagingIdentity.Serial
import MessagingIdentity.BuildInfo
import MessagingIdentity.Toml.Parser
import MessagingIdentity.Toml.Printer
import MessagingIdentity.CommandLine.Program
import MessagingIdentity.Main
import MessagingIdentity.Proofs.Outcomes
import MessagingIdentity.Proofs.TextBytes
import MessagingIdentity.Proofs.Numerals
import MessagingIdentity.Proofs.Base58Inverse
import MessagingIdentity.Proofs.DigestLengths
import MessagingIdentity.Proofs.CheckedAddressTexts
import MessagingIdentity.Proofs.HashedAddressTexts
import MessagingIdentity.Proofs.AddressTexts
import MessagingIdentity.Proofs.IdentifierGrammar
import MessagingIdentity.Proofs.IdentifierParts
import MessagingIdentity.Proofs.SharedCalls
import MessagingIdentity.Proofs.SerialInterleaving
import MessagingIdentity.Proofs.SharedCaches
import MessagingIdentity.Proofs.MetaIdentifiers
import MessagingIdentity.Proofs.IdentifierEquality
import MessagingIdentity.Proofs.Pieces
import MessagingIdentity.Proofs.BlockCipherInverse
import MessagingIdentity.Proofs.ChainedBlocks
import MessagingIdentity.Proofs.Base64Inverse
import MessagingIdentity.Proofs.HexadecimalInverse
import MessagingIdentity.Proofs.TransportTexts
import MessagingIdentity.Proofs.BigEndian
import MessagingIdentity.Proofs.DerElements
import MessagingIdentity.Proofs.Armour
import MessagingIdentity.Proofs.KeyForms
import MessagingIdentity.Proofs.JsonMembers
import MessagingIdentity.Proofs.SymmetricEncryption
import MessagingIdentity.Proofs.SymmetricEquality
import MessagingIdentity.Proofs.PublicKeyEquality
import MessagingIdentity.Proofs.DerivedPublicKey
import MessagingIdentity.Proofs.MetaMembers
import MessagingIdentity.Proofs.ModularPowers
import MessagingIdentity.Proofs.CurveOrders
import MessagingIdentity.Proofs.CurveGroup
import MessagingIdentity.Proofs.GeneratorMultiples
import MessagingIdentity.Proofs.PackedSha256
import MessagingIdentity.Proofs.SignatureChecks
import MessagingIdentity.Proofs.RsaPermutation
import MessagingIdentity.Proofs.RsaSignatures
import MessagingIdentity.Proofs.RsaEncryption
import MessagingIdentity.Proofs.PrivateKeyEquality
import MessagingIdentity.Proofs.SignatureForms
import MessagingIdentity.Proofs.CacheHistory
import MessagingIdentity.Proofs.CacheKeys
import MessagingIdentity.Proofs.FilePlaces
import MessagingIdentity.Proofs.StateFiles
import MessagingIdentity.Proofs.IdentifierFailures
import MessagingIdentity.Proofs.CacheEffects
import MessagingIdentity.Proofs.PointForms
import MessagingIdentity.Proofs.PointAddresses
import MessagingIdentity.Proofs.MetaAddresses
import MessagingIdentity.Proofs.CurveSignatures
import MessagingIdentity.Proofs.SymmetricDecryption
import MessagingIdentity.Proofs.EncryptionParameters
import MessagingIdentity.Proofs.ReloadedRsaKeys
import MessagingIdentity.Proofs.TransportPayloads
import MessagingIdentity.Proofs.DecimalTexts
import MessagingIdentity.Proofs.DeclaredSizes
import MessagingIdentity.Proofs.AddressCasings
import MessagingIdentity.Proofs.TomlTexts
import MessagingIdentity.Proofs.ConfigurationTexts
import MessagingIdentity.Proofs.JsonTexts
import MessagingIdentity.Proofs.GeneratedKeys
import MessagingIdentity.Proofs.StoredStates
import MessagingIdentity.Proofs.SharedCommands
import MessagingIdentity.Proofs.IdentifierCommands
