import WorkersAuth.Client.Freshness
import WorkersAuth.Neon.Freshness
import WorkersAuth.Neon.RefetchInterval
import WorkersAuth.Neon.Soundness
import WorkersAuth.Origins
import WorkersAuth.Redirects
import WorkersAuth.CsrfRefusal
import WorkersAuth.LinkTokens
import WorkersAuth.ApiKeys.Expiry
import WorkersAuth.ApiKeys.Revocation
import WorkersAuth.ApiKeys.Interchange
import WorkersAuth.ApiKeys.Deployment
import WorkersAuth.Cookies.Configuration
import WorkersAuth.Cookies.Parsing
import WorkersAuth.DeviceAuth.Deployment
import WorkersAuth.DeviceAuth.AttemptBudget
import WorkersAuth.DeviceAuth.BreakerClients
import WorkersAuth.DeviceAuth.FailureBudget
import WorkersAuth.DeviceAuth.DeviceLifetime
import WorkersAuth.DeviceAuth.EmailCodes
import WorkersAuth.DeviceAuth.EmailProof
import WorkersAuth.DeviceAuth.FixedWindows
import WorkersAuth.DeviceAuth.GuessBudget
import WorkersAuth.DeviceAuth.InertLogin
import WorkersAuth.DeviceAuth.IpSpellings
import WorkersAuth.DeviceAuth.LivePin
import WorkersAuth.DeviceAuth.LockNotice
import WorkersAuth.DeviceAuth.PinLock
import WorkersAuth.DeviceAuth.PinLogin
import WorkersAuth.DeviceAuth.Recovery
import WorkersAuth.DeviceAuth.Replacement
import WorkersAuth.DeviceAuth.SecretRotation
import WorkersAuth.DeviceAuth.Forgery
import WorkersAuth.DeviceAuth.TokenEncoding
import WorkersAuth.DeviceAuth.UnseenCleanup
import WorkersAuth.DeviceAuth.CodeSampling
import WorkersAuth.DeviceAuth.RequestBodies
import WorkersAuth.Stores.LogoutEverywhere
import WorkersAuth.Stores.DeferredCleanup
import WorkersAuth.Stores.Refusal
import WorkersAuth.Stores.SlidingExpiry
import WorkersAuth.Stores.SharedRevocation
import WorkersAuth.Stores.ActiveSession
import WorkersAuth.Stores.FailedCreation
import WorkersAuth.Stores.UnseenCollection
