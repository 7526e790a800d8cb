import Logbook.Text.Class

set_option autoImplicit false

/-! # Scripts

The script of each code point, under its four-letter code. The table lists the code points as runs,
like the table of general categories. -/

namespace Logbook.Text.Script

/-- The runs of the script table, as text. -/
def runText : String := "
41Zyyy 1aLatn 6Zyyy 1aLatn 2fZyyy 1Latn fZyyy 1Latn 5Zyyy 17Latn 1Zyyy 1fLatn 1Zyyy 1c1Latn 27Zyyy
5Latn 5Zyyy 2Bopo 14Zyyy 70Zinh 4Grek 1Zyyy 3Grek 2Zzzz 4Grek 1Zyyy 1Grek 4Zzzz 1Grek 1Zyyy 1Grek
1Zyyy 3Grek 1Zzzz 1Grek 1Zzzz 14Grek 1Zzzz 3fGrek eCopt 10Grek 85Cyrl 2Zinh a9Cyrl 1Zzzz 26Armn
2Zzzz 32Armn 2Zzzz 3Armn 1Zzzz 37Hebr 8Zzzz 1bHebr 4Zzzz 6Hebr bZzzz 5Arab 1Zyyy 6Arab 1Zyyy eArab
1Zyyy 3Arab 1Zyyy 20Arab 1Zyyy aArab bZinh 1aArab 1Zinh 6cArab 1Zyyy 22Arab eSyrc 1Zzzz 3cSyrc
2Zzzz 3Syrc 30Arab 32Thaa eZzzz 3bNkoo 2Zzzz 3Nkoo 2eSamr 2Zzzz fSamr 1Zzzz 1cMand 2Zzzz 1Mand
1Zzzz bSyrc 5Zzzz 22Arab 5Zzzz 4bArab 1Zyyy 1dArab 51Deva 4Zinh fDeva 2Zyyy 1aDeva 4Beng 1Zzzz
8Beng 2Zzzz 2Beng 2Zzzz 16Beng 1Zzzz 7Beng 1Zzzz 1Beng 3Zzzz 4Beng 2Zzzz 9Beng 2Zzzz 2Beng 2Zzzz
4Beng 8Zzzz 1Beng 4Zzzz 2Beng 1Zzzz 5Beng 2Zzzz 19Beng 2Zzzz 3Guru 1Zzzz 6Guru 4Zzzz 2Guru 2Zzzz
16Guru 1Zzzz 7Guru 1Zzzz 2Guru 1Zzzz 2Guru 1Zzzz 2Guru 2Zzzz 1Guru 1Zzzz 5Guru 4Zzzz 2Guru 2Zzzz
3Guru 3Zzzz 1Guru 7Zzzz 4Guru 1Zzzz 1Guru 7Zzzz 11Guru aZzzz 3Gujr 1Zzzz 9Gujr 1Zzzz 3Gujr 1Zzzz
16Gujr 1Zzzz 7Gujr 1Zzzz 2Gujr 1Zzzz 5Gujr 2Zzzz aGujr 1Zzzz 3Gujr 1Zzzz 3Gujr 2Zzzz 1Gujr fZzzz
4Gujr 2Zzzz cGujr 7Zzzz 7Gujr 1Zzzz 3Orya 1Zzzz 8Orya 2Zzzz 2Orya 2Zzzz 16Orya 1Zzzz 7Orya 1Zzzz
2Orya 1Zzzz 5Orya 2Zzzz 9Orya 2Zzzz 2Orya 2Zzzz 3Orya 7Zzzz 3Orya 4Zzzz 2Orya 1Zzzz 5Orya 2Zzzz
12Orya aZzzz 2Taml 1Zzzz 6Taml 3Zzzz 3Taml 1Zzzz 4Taml 3Zzzz 2Taml 1Zzzz 1Taml 1Zzzz 2Taml 3Zzzz
2Taml 3Zzzz 3Taml 3Zzzz cTaml 4Zzzz 5Taml 3Zzzz 3Taml 1Zzzz 4Taml 2Zzzz 1Taml 6Zzzz 1Taml eZzzz
15Taml 5Zzzz dTelu 1Zzzz 3Telu 1Zzzz 17Telu 1Zzzz 10Telu 2Zzzz 9Telu 1Zzzz 3Telu 1Zzzz 4Telu 7Zzzz
2Telu 1Zzzz 3Telu 1Zzzz 2Telu 2Zzzz 4Telu 2Zzzz aTelu 7Zzzz 9Telu dKnda 1Zzzz 3Knda 1Zzzz 17Knda
1Zzzz aKnda 1Zzzz 5Knda 2Zzzz 9Knda 1Zzzz 3Knda 1Zzzz 4Knda 7Zzzz 2Knda 5Zzzz 3Knda 1Zzzz 4Knda
2Zzzz aKnda 1Zzzz 3Knda cZzzz dMlym 1Zzzz 3Mlym 1Zzzz 33Mlym 1Zzzz 3Mlym 1Zzzz 6Mlym 4Zzzz 10Mlym
2Zzzz 1aMlym 1Zzzz 3Sinh 1Zzzz 12Sinh 3Zzzz 18Sinh 1Zzzz 9Sinh 1Zzzz 1Sinh 2Zzzz 7Sinh 3Zzzz 1Sinh
4Zzzz 6Sinh 1Zzzz 1Sinh 1Zzzz 8Sinh 6Zzzz aSinh 2Zzzz 3Sinh cZzzz 3aThai 4Zzzz 1Zyyy 1cThai 25Zzzz
2Laoo 1Zzzz 1Laoo 1Zzzz 5Laoo 1Zzzz 18Laoo 1Zzzz 1Laoo 1Zzzz 17Laoo 2Zzzz 5Laoo 1Zzzz 1Laoo 1Zzzz
7Laoo 1Zzzz aLaoo 2Zzzz 4Laoo 20Zzzz 48Tibt 1Zzzz 24Tibt 4Zzzz 27Tibt 1Zzzz 24Tibt 1Zzzz fTibt
1Zzzz 7Tibt 4Zyyy 2Tibt 25Zzzz a0Mymr 26Geor 1Zzzz 1Geor 5Zzzz 1Geor 2Zzzz 2bGeor 1Zyyy 4Geor
100Hang 49Ethi 1Zzzz 4Ethi 2Zzzz 7Ethi 1Zzzz 1Ethi 1Zzzz 4Ethi 2Zzzz 29Ethi 1Zzzz 4Ethi 2Zzzz
21Ethi 1Zzzz 4Ethi 2Zzzz 7Ethi 1Zzzz 1Ethi 1Zzzz 4Ethi 2Zzzz fEthi 1Zzzz 39Ethi 1Zzzz 4Ethi 2Zzzz
43Ethi 2Zzzz 20Ethi 3Zzzz 1aEthi 6Zzzz 56Cher 2Zzzz 6Cher 2Zzzz 280Cans 1dOgam 3Zzzz 4bRunr 3Zyyy
bRunr 7Zzzz 16Tglg 9Zzzz 1Tglg 15Hano 2Zyyy 9Zzzz 14Buhd cZzzz dTagb 1Zzzz 3Tagb 1Zzzz 2Tagb cZzzz
5eKhmr 2Zzzz aKhmr 6Zzzz aKhmr 6Zzzz 2Mong 2Zyyy 1Mong 1Zyyy 14Mong 6Zzzz 59Mong 7Zzzz 2bMong
5Zzzz 46Cans aZzzz 1fLimb 1Zzzz cLimb 4Zzzz cLimb 4Zzzz 1Limb 3Zzzz cLimb 1eTale 2Zzzz 5Tale bZzzz
2cTalu 4Zzzz 1aTalu 6Zzzz bTalu 3Zzzz 2Talu 20Khmr 1cBugi 2Zzzz 2Bugi 3fLana 1Zzzz 1dLana 2Zzzz
bLana 6Zzzz aLana 6Zzzz eLana 2Zzzz 2eZinh 2Zzzz cZinh 14Zzzz 4dBali 1Zzzz 32Bali 40Sund 34Batk
8Zzzz 4Batk 38Lepc 3Zzzz fLepc 3Zzzz 3Lepc 30Olck bCyrl 5Zzzz 2bGeor 2Zzzz 3Geor 8Sund 8Zzzz 3Zinh
1Zyyy dZinh 1Zyyy 7Zinh 4Zyyy 1Zinh 6Zyyy 1Zinh 3Zyyy 2Zinh 1Zyyy 5Zzzz 26Latn 5Grek 1Cyrl 31Latn
5Grek 4Latn 5Grek dLatn 1Cyrl 46Latn 1Grek 40Zinh 100Latn 16Grek 2Zzzz 6Grek 2Zzzz 26Grek 2Zzzz
6Grek 2Zzzz 8Grek 1Zzzz 1Grek 1Zzzz 1Grek 1Zzzz 1Grek 1Zzzz 1fGrek 2Zzzz 35Grek 1Zzzz fGrek 1Zzzz
eGrek 2Zzzz 6Grek 1Zzzz 13Grek 2Zzzz 3Grek 1Zzzz 9Grek 1Zzzz cZyyy 2Zinh 57Zyyy 1Zzzz bZyyy 1Latn
2Zzzz bZyyy 1Latn fZyyy 1Zzzz dLatn 3Zzzz 22Zyyy eZzzz 21Zinh fZzzz 26Zyyy 1Grek 3Zyyy 2Latn 6Zyyy
1Latn 1bZyyy 1Latn 11Zyyy 29Latn 3Zyyy 4Zzzz 29aZyyy 16Zzzz bZyyy 15Zzzz 3a0Zyyy 100Brai 274Zyyy
2Zzzz 8aZyyy 60Glag 20Latn 74Copt 5Zzzz 7Copt 26Geor 1Zzzz 1Geor 5Zzzz 1Geor 2Zzzz 38Tfng 7Zzzz
2Tfng eZzzz 1Tfng 17Ethi 9Zzzz 7Ethi 1Zzzz 7Ethi 1Zzzz 7Ethi 1Zzzz 7Ethi 1Zzzz 7Ethi 1Zzzz 7Ethi
1Zzzz 7Ethi 1Zzzz 7Ethi 1Zzzz 20Cyrl 5eZyyy 22Zzzz 1aHani 1Zzzz 59Hani cZzzz d6Hani 1aZzzz 15Zyyy
1Hani 1Zyyy 1Hani 19Zyyy 9Hani 4Zinh 2Hang 8Zyyy 4Hani 4Zyyy 1Zzzz 56Hira 2Zzzz 2Zinh 2Zyyy 3Hira
1Zyyy 5aKana 2Zyyy 3Kana 5Zzzz 2bBopo 1Zzzz 5eHang 1Zzzz 10Zyyy 20Bopo 26Zyyy 9Zzzz 1Zyyy 10Kana
1fHang 1Zzzz 40Zyyy 1fHang 51Zyyy 2fKana 1Zyyy 58Kana a8Zyyy 19c0Hani 40Zyyy 5200Hani 48dYiii
3Zzzz 37Yiii 9Zzzz 30Lisu 12cVaii 14Zzzz 60Cyrl 58Bamu 8Zzzz 22Zyyy 66Latn 3Zyyy 52Latn 14Zzzz
fLatn 2dSylo 3Zzzz aZyyy 6Zzzz 38Phag 8Zzzz 46Saur 8Zzzz cSaur 6Zzzz 20Deva 2eKali 1Zyyy 1Kali
24Rjng bZzzz 1Rjng 1dHang 3Zzzz 4eJava 1Zzzz 1Zyyy aJava 4Zzzz 2Java 1fMymr 1Zzzz 37Cham 9Zzzz
eCham 2Zzzz aCham 2Zzzz 4Cham 20Mymr 43Tavt 18Zzzz 5Tavt 17Mtei aZzzz 6Ethi 2Zzzz 6Ethi 2Zzzz
6Ethi 9Zzzz 7Ethi 1Zzzz 7Ethi 1Zzzz 2bLatn 1Zyyy 9Latn 1Grek 4Latn 2Zyyy 4Zzzz 50Cher 2eMtei 2Zzzz
aMtei 6Zzzz 2ba4Hang cZzzz 17Hang 4Zzzz 31Hang 2104Zzzz 16eHani 2Zzzz 6aHani 26Zzzz 7Latn cZzzz
5Armn 5Zzzz 1aHebr 1Zzzz 5Hebr 1Zzzz 1Hebr 1Zzzz 2Hebr 1Zzzz 2Hebr 1Zzzz aHebr 1eeArab 2Zyyy
90Arab 20Zzzz 10Arab 10Zinh aZyyy 6Zzzz eZinh 2Cyrl 23Zyyy 1Zzzz 13Zyyy 1Zzzz 4Zyyy 4Zzzz 5Arab
1Zzzz 87Arab 2Zzzz 1Zyyy 1Zzzz 20Zyyy 1aLatn 6Zyyy 1aLatn bZyyy aKana 1Zyyy 2dKana 2Zyyy 1fHang
3Zzzz 6Hang 2Zzzz 6Hang 2Zzzz 6Hang 2Zzzz 3Hang 3Zzzz 7Zyyy 1Zzzz 7Zyyy aZzzz 5Zyyy 2Zzzz cLinb
1Zzzz 1aLinb 1Zzzz 13Linb 1Zzzz 2Linb 1Zzzz fLinb 2Zzzz eLinb 22Zzzz 7bLinb 5Zzzz 3Zyyy 4Zzzz
2dZyyy 3Zzzz 9Zyyy 4fGrek 1Zzzz dZyyy 3Zzzz 1Grek 2fZzzz 2dZyyy 1Zinh 82Zzzz 1dLyci 3Zzzz 31Cari
fZzzz 1Zinh 1bZyyy 4Zzzz 24Ital 9Zzzz 3Ital 1bGoth 5Zzzz 2bPerm 5Zzzz 1eUgar 1Zzzz 1Ugar 24Xpeo
4Zzzz eXpeo 2aZzzz 50Dsrt 30Shaw 1eOsma 2Zzzz aOsma 6Zzzz 24Osge 4Zzzz 24Osge 4Zzzz 28Elba 8Zzzz
34Aghb bZzzz 1Aghb bVith 1Zzzz fVith 1Zzzz 7Vith 1Zzzz 2Vith 1Zzzz bVith 1Zzzz fVith 1Zzzz 7Vith
1Zzzz 2Vith 3Zzzz 34Todr cZzzz 137Lina 9Zzzz 16Lina aZzzz 8Lina 18Zzzz 6Latn 1Zzzz 2aLatn 1Zzzz
9Latn 45Zzzz 6Cprt 2Zzzz 1Cprt 1Zzzz 2cCprt 1Zzzz 2Cprt 3Zzzz 1Cprt 2Zzzz 1Cprt 16Armi 1Zzzz 9Armi
20Palm 1fNbat 8Zzzz 9Nbat 30Zzzz 13Hatr 1Zzzz 2Hatr 5Zzzz 5Hatr 1cPhnx 3Zzzz 1Phnx 1aLydi 5Zzzz
1Lydi 1aSidt 26Zzzz 20Mero 18Merc 4Zzzz 14Merc 2Zzzz 2eMerc 4Khar 1Zzzz 2Khar 5Zzzz 8Khar 1Zzzz
3Khar 1Zzzz 1dKhar 2Zzzz 3Khar 4Zzzz aKhar 7Zzzz 9Khar 7Zzzz 20Sarb 20Narb 20Zzzz 27Mani 4Zzzz
cMani 9Zzzz 36Avst 3Zzzz 7Avst 16Prti 2Zzzz 8Prti 13Phli 5Zzzz 8Phli 12Phlp 7Zzzz 4Phlp cZzzz
7Phlp 50Zzzz 49Orkh 37Zzzz 33Hung dZzzz 33Hung 7Zzzz 6Hung 28Rohg 8Zzzz aRohg 6Zzzz 26Gara 3Zzzz
1dGara 8Zzzz 2Gara d0Zzzz 1fArab 1Zzzz 2aYezi 1Zzzz 3Yezi 2Zzzz 2Yezi 10Zzzz 6Arab 8Zzzz 9Arab
21Zzzz 6Arab 28Sogo 8Zzzz 2aSogd 16Zzzz 1aOugr 26Zzzz 1cChrs 14Zzzz 17Elym 9Zzzz 4eBrah 4Zzzz
24Brah 9Zzzz 1Brah 43Kthi aZzzz 1Kthi 2Zzzz 19Sora 7Zzzz aSora 6Zzzz 35Cakm 1Zzzz 12Cakm 8Zzzz
27Mahj 9Zzzz 60Shrd 1Zzzz 14Sinh bZzzz 12Khoj 1Zzzz 2fKhoj 3eZzzz 7Mult 1Zzzz 1Mult 1Zzzz 4Mult
1Zzzz fMult 1Zzzz bMult 6Zzzz 3bSind 5Zzzz aSind 6Zzzz 4Gran 1Zzzz 8Gran 2Zzzz 2Gran 2Zzzz 16Gran
1Zzzz 7Gran 1Zzzz 2Gran 1Zzzz 5Gran 1Zzzz 1Zinh 9Gran 2Zzzz 2Gran 2Zzzz 3Gran 2Zzzz 1Gran 6Zzzz
1Gran 5Zzzz 7Gran 2Zzzz 7Gran 3Zzzz 5Gran bZzzz aTutg 1Zzzz 1Tutg 2Zzzz 1Tutg 1Zzzz 26Tutg 1Zzzz
aTutg 1Zzzz 1Tutg 2Zzzz 1Tutg 1Zzzz 4Tutg 1Zzzz aTutg 1Zzzz 2Tutg 8Zzzz 2Tutg 1dZzzz 5cNewa 1Zzzz
5Newa 1eZzzz 48Tirh 8Zzzz aTirh a6Zzzz 36Sidd 2Zzzz 26Sidd 22Zzzz 45Modi bZzzz aModi 6Zzzz dMong
13Zzzz 3aTakr 6Zzzz aTakr 6Zzzz 14Mymr 1cZzzz 1bAhom 2Zzzz fAhom 4Zzzz 17Ahom b9Zzzz 3cDogr 64Zzzz
53Wara cZzzz 1Wara 7Diak 2Zzzz 1Diak 2Zzzz 8Diak 1Zzzz 2Diak 1Zzzz 1eDiak 1Zzzz 2Diak 2Zzzz cDiak
9Zzzz aDiak 46Zzzz 8Nand 2Zzzz 2eNand 2Zzzz bNand 1bZzzz 48Zanb 8Zzzz 53Soyo dZzzz 10Cans 39Pauc
7Zzzz aDeva 56Zzzz 8Shrd 58Zzzz 22Sunu eZzzz aSunu 6Zzzz 9Bhks 1Zzzz 2dBhks 1Zzzz eBhks aZzzz
1dBhks 3Zzzz 20Marc 2Zzzz 16Marc 1Zzzz eMarc 49Zzzz 7Gonm 1Zzzz 2Gonm 1Zzzz 2cGonm 3Zzzz 1Gonm
1Zzzz 2Gonm 1Zzzz 9Gonm 8Zzzz aGonm 6Zzzz 6Gong 1Zzzz 2Gong 1Zzzz 25Gong 1Zzzz 2Gong 1Zzzz 6Gong
7Zzzz aGong 6Zzzz 2cTols 4Zzzz aTols f6Zzzz 19Maka 7Zzzz 11Kawi 1Zzzz 29Kawi 3Zzzz 1dKawi 55Zzzz
1Lisu fZzzz 32Taml dZzzz 1Taml 39aXsux 66Zzzz 6fXsux 1Zzzz 5Xsux bZzzz c4Xsux a4cZzzz 63Cpmn dZzzz
456Egyp aZzzz f9bEgyp 5Zzzz 247Hluw 1ab9Zzzz 3aGukh 6c6Zzzz 239Bamu 7Zzzz 1fMroo 1Zzzz aMroo 4Zzzz
2Mroo 4fTnsa 1Zzzz aTnsa 6Zzzz 1eBass 2Zzzz 6Bass aZzzz 46Hmng aZzzz aHmng 1Zzzz 7Hmng 1Zzzz
15Hmng 5Zzzz 13Hmng 1b0Zzzz 3aKrai c6Zzzz 5bMedf 5Zzzz 19Berf 2Zzzz 19Berf 2cZzzz 4bPlrd 4Zzzz
39Plrd 7Zzzz 11Plrd 40Zzzz 1Tang 1Nshu 2Hani 1Kits bZzzz 7Hani 9Zzzz 1b00Tang 1d6Kits 29Zzzz 1Kits
1fTang 61Zzzz 73Tang 21fdZzzz 4Kana 1Zzzz 7Kana 1Zzzz 2Kana 1Zzzz 1Kana 11fHira 3Kana fZzzz 1Hira
1dZzzz 3Hira 2Zzzz 1Kana eZzzz 4Kana 8Zzzz 18cNshu 904Zzzz 6bDupl 5Zzzz dDupl 3Zzzz 9Dupl 7Zzzz
aDupl 2Zzzz 4Dupl 4Zyyy f5cZzzz fdZyyy 3Zzzz 1b4Zyyy 6Zzzz 17Zyyy fZzzz 11Zyyy fZzzz 2eZinh 2Zzzz
17Zinh 9Zzzz 74Zyyy 3cZzzz f6Zyyy aZzzz 27Zyyy 2Zzzz 3eZyyy 3Zinh 11Zyyy 8Zinh 2Zyyy 7Zinh 1eZyyy
4Zinh 3dZyyy 15Zzzz 46Grek 7aZzzz 14Zyyy cZzzz 14Zyyy cZzzz 57Zyyy 9Zzzz 19Zyyy 87Zzzz 55Zyyy
1Zzzz 47Zyyy 1Zzzz 2Zyyy 2Zzzz 1Zyyy 2Zzzz 2Zyyy 2Zzzz 4Zyyy 1Zzzz cZyyy 1Zzzz 1Zyyy 1Zzzz 7Zyyy
1Zzzz 41Zyyy 1Zzzz 4Zyyy 2Zzzz 8Zyyy 1Zzzz 7Zyyy 1Zzzz 1cZyyy 1Zzzz 4Zyyy 1Zzzz 5Zyyy 1Zzzz 1Zyyy
3Zzzz 7Zyyy 1Zzzz 154Zyyy 2Zzzz 124Zyyy 2Zzzz 32Zyyy 28cSgnw fZzzz 5Sgnw 1Zzzz fSgnw 450Zzzz
1fLatn 6Zzzz 6Latn d5Zzzz 7Glag 1Zzzz 11Glag 2Zzzz 7Glag 1Zzzz 2Glag 1Zzzz 5Glag 5Zzzz 3eCyrl
21Zzzz 1Cyrl 70Zzzz 2dHmnp 3Zzzz eHmnp 2Zzzz aHmnp 4Zzzz 2Hmnp 140Zzzz 1fToto 11Zzzz 3aWcho 5Zzzz
1Wcho 1d0Zzzz 2aNagm d6Zzzz 2bOnao 4Zzzz 1Onao c0Zzzz 1fTayo 1Zzzz 16Tayo 8Zzzz 2Tayo e0Zzzz 7Ethi
1Zzzz 4Ethi 1Zzzz 2Ethi 1Zzzz fEthi 1Zzzz c5Mend 2Zzzz 10Mend 29Zzzz 4cAdlm 4Zzzz aAdlm 4Zzzz
2Adlm 311Zzzz 44Zyyy 4cZzzz 3dZyyy c2Zzzz 4Arab 1Zzzz 1bArab 1Zzzz 2Arab 1Zzzz 1Arab 2Zzzz 1Arab
1Zzzz aArab 1Zzzz 4Arab 1Zzzz 1Arab 1Zzzz 1Arab 6Zzzz 1Arab 4Zzzz 1Arab 1Zzzz 1Arab 1Zzzz 1Arab
1Zzzz 3Arab 1Zzzz 2Arab 1Zzzz 1Arab 2Zzzz 1Arab 1Zzzz 1Arab 1Zzzz 1Arab 1Zzzz 1Arab 1Zzzz 1Arab
1Zzzz 2Arab 1Zzzz 1Arab 2Zzzz 4Arab 1Zzzz 7Arab 1Zzzz 4Arab 1Zzzz 4Arab 1Zzzz 1Arab 1Zzzz aArab
1Zzzz 11Arab 5Zzzz 3Arab 1Zzzz 5Arab 1Zzzz 11Arab 34Zzzz 2Arab 10eZzzz 2cZyyy 4Zzzz 64Zyyy cZzzz
fZyyy 2Zzzz fZyyy 1Zzzz fZyyy 1Zzzz 25Zyyy aZzzz aeZyyy 38Zzzz 1aZyyy 1Hira 2Zyyy dZzzz 2cZyyy
4Zzzz 9Zyyy 7Zzzz 2Zyyy eZzzz 6Zyyy 9aZzzz 3d9Zyyy 3Zzzz 11Zyyy 3Zzzz dZyyy 3Zzzz daZyyy 6Zzzz
cZyyy 4Zzzz 1Zyyy fZzzz cZyyy 4Zzzz 38Zyyy 8Zzzz aZyyy 6Zzzz 28Zyyy 8Zzzz 1eZyyy 2Zzzz cZyyy 4Zzzz
2Zyyy eZzzz 9Zyyy 27Zzzz 158Zyyy 8Zzzz eZyyy 2Zzzz dZyyy 3Zzzz bZyyy 3Zzzz 39Zyyy 1Zzzz 1Zyyy
4Zzzz 10Zyyy 2Zzzz cZyyy 4Zzzz aZyyy 7Zzzz 93Zyyy 1Zzzz 67Zyyy 405Zzzz a6e0Hani 20Zzzz 111eHani
2Zzzz 168eHani 2Zzzz 1d31Hani fZzzz 26eHani 9a2Zzzz 21eHani 5e2Zzzz 134bHani 5Zzzz 212aHani
acb87Zzzz 1Zyyy 1eZzzz 60Zyyy 80Zzzz f0Zinh 2fe10Zzzz"

/-- Reads one run: its length and its code. -/
def readRun (cs : List Char) : Nat × String :=
  (Ranges.readHex (cs.take (cs.length - 4)), String.ofList (cs.drop (cs.length - 4)))

/-- The first code point of each run, with the run's code. -/
def startsOf : List (Nat × String) → (start : Nat) → List (Nat × String)
  | [], _ => []
  | (length, code) :: rest, start => (start, code) :: startsOf rest (start + length)

def runs : Array (Nat × String) :=
  (startsOf ((Ranges.words runText.toList []).map readRun) 0).toArray

/-- The code of a character's script. -/
def code (c : Char) : String :=
  let i := Category.lastAtMost (fun i => (runs.getD i (0, "")).1) c.toNat 32 0 runs.size
  (runs.getD i (0, "")).2

/-- Each code with the names of its script, in lowercase and without separators. -/
def nameText : String := "
Adlm=adlam=adlm Aghb=aghb=caucasianalbanian Ahom=ahom Arab=arab=arabic Armi=armi=imperialaramaic
Armn=armenian=armn Avst=avestan=avst Bali=bali=balinese Bamu=bamu=bamum Bass=bass=bassavah
Batk=batak=batk Beng=beng=bengali Berf=berf=beriaerfe Bhks=bhaiksuki=bhks Bopo=bopo=bopomofo
Brah=brah=brahmi Brai=brai=braille Bugi=bugi=buginese Buhd=buhd=buhid Cakm=cakm=chakma
Cans=canadianaboriginal=cans Cari=cari=carian Cham=cham Cher=cher=cherokee Chrs=chorasmian=chrs
Copt=copt=coptic=qaac Cpmn=cpmn=cyprominoan Cprt=cprt=cypriot Cyrl=cyrillic=cyrl
Deva=deva=devanagari Diak=diak=divesakuru Dogr=dogr=dogra Dsrt=deseret=dsrt Dupl=dupl=duployan
Egyp=egyp=egyptianhieroglyphs Elba=elba=elbasan Elym=elym=elymaic Ethi=ethi=ethiopic
Gara=gara=garay Geor=geor=georgian Glag=glag=glagolitic Gong=gong=gunjalagondi
Gonm=gonm=masaramgondi Goth=goth=gothic Gran=gran=grantha Grek=greek=grek Gujr=gujarati=gujr
Gukh=gukh=gurungkhema Guru=gurmukhi=guru Hang=hang=hangul Hani=han=hani Hano=hano=hanunoo
Hatr=hatr=hatran Hebr=hebr=hebrew Hira=hira=hiragana Hluw=anatolianhieroglyphs=hluw
Hmng=hmng=pahawhhmong Hmnp=hmnp=nyiakengpuachuehmong Hung=hung=oldhungarian Ital=ital=olditalic
Java=java=javanese Kali=kali=kayahli Kana=kana=katakana Kawi=kawi Khar=khar=kharoshthi
Khmr=khmer=khmr Khoj=khoj=khojki Kits=khitansmallscript=kits Knda=kannada=knda Krai=kiratrai=krai
Kthi=kaithi=kthi Lana=lana=taitham Laoo=lao=laoo Latn=latin=latn Lepc=lepc=lepcha Limb=limb=limbu
Lina=lina=lineara Linb=linb=linearb Lisu=lisu Lyci=lyci=lycian Lydi=lydi=lydian Mahj=mahajani=mahj
Maka=maka=makasar Mand=mand=mandaic Mani=mani=manichaean Marc=marc=marchen Medf=medefaidrin=medf
Mend=mend=mendekikakui Merc=merc=meroiticcursive Mero=mero=meroitichieroglyphs Mlym=malayalam=mlym
Modi=modi Mong=mong=mongolian Mroo=mro=mroo Mtei=meeteimayek=mtei Mult=mult=multani
Mymr=myanmar=mymr Nagm=nagm=nagmundari Nand=nand=nandinagari Narb=narb=oldnortharabian
Nbat=nabataean=nbat Newa=newa Nkoo=nko=nkoo Nshu=nshu=nushu Ogam=ogam=ogham Olck=olchiki=olck
Onao=olonal=onao Orkh=oldturkic=orkh Orya=oriya=orya Osge=osage=osge Osma=osma=osmanya
Ougr=olduyghur=ougr Palm=palm=palmyrene Pauc=pauc=paucinhau Perm=oldpermic=perm Phag=phag=phagspa
Phli=inscriptionalpahlavi=phli Phlp=phlp=psalterpahlavi Phnx=phnx=phoenician Plrd=miao=plrd
Prti=inscriptionalparthian=prti Rjng=rejang=rjng Rohg=hanifirohingya=rohg Runr=runic=runr
Samr=samaritan=samr Sarb=oldsoutharabian=sarb Saur=saur=saurashtra Sgnw=sgnw=signwriting
Shaw=shavian=shaw Shrd=sharada=shrd Sidd=sidd=siddham Sidt=sidetic=sidt Sind=khudawadi=sind
Sinh=sinh=sinhala Sogd=sogd=sogdian Sogo=oldsogdian=sogo Sora=sora=sorasompeng Soyo=soyo=soyombo
Sund=sund=sundanese Sunu=sunu=sunuwar Sylo=sylo=sylotinagri Syrc=syrc=syriac Tagb=tagb=tagbanwa
Takr=takr=takri Tale=taile=tale Talu=newtailue=talu Taml=tamil=taml Tang=tang=tangut
Tavt=taiviet=tavt Tayo=taiyo=tayo Telu=telu=telugu Tfng=tfng=tifinagh Tglg=tagalog=tglg
Thaa=thaa=thaana Thai=thai Tibt=tibetan=tibt Tirh=tirh=tirhuta Tnsa=tangsa=tnsa Todr=todhri=todr
Tols=tolongsiki=tols Toto=toto Tutg=tulutigalari=tutg Ugar=ugar=ugaritic Vaii=vai=vaii
Vith=vith=vithkuqi Wara=wara=warangciti Wcho=wancho=wcho Xpeo=oldpersian=xpeo Xsux=cuneiform=xsux
Yezi=yezi=yezidi Yiii=yi=yiii Zanb=zanabazarsquare=zanb Zinh=inherited=qaai=zinh Zyyy=common=zyyy
Zzzz=unknown=zzzz"

/-- Cuts a text at every equals sign. -/
def splitNames : List Char → (name : List Char) → List (List Char)
  | [], name => [name.reverse]
  | c :: rest, name =>
    if c = '=' then name.reverse :: splitNames rest [] else splitNames rest (c :: name)

/-- The codes with their names. -/
def named : List (List (List Char)) :=
  (Ranges.words nameText.toList []).map fun word => splitNames word []

/-- The code of the script with a name that is in lowercase and without separators. -/
def codeOfName? (name : List Char) : Option String :=
  (named.find? fun entry => (entry.drop 1).contains name).bind fun entry =>
    entry.head?.map String.ofList

end Logbook.Text.Script
